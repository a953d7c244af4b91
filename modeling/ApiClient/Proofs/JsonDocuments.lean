import ApiClient.Proofs.JsonRoundTrip
import ApiClient.Proofs.NumeralReading
import ApiClient.Proofs.QuotedReading

/-!
# ApiClient.Proofs.JsonDocuments

The reader accepts JSON and nothing else.

What the loop over the parts of a list or of an object accepts follows from what the reader of its
parts accepts (`Loop.complete`, `Loop.sound`). So a value is an induction on the brackets that may
still be opened, with one step for both kinds of brackets.
-/

namespace ApiClient.Json

open Bytes Grammar

theorem Grammar.Joined.length_le {α : Type} {Inner : Bytes → α → Prop} {text : Bytes}
    {values : List α} (h : Joined Inner text values) : values.length ≤ text.length + 1 := by
  induction h with
  | one _ => exact Nat.le_add_left 1 _
  | more _ _ ih =>
      rw [List.length_cons, List.length_append, List.length_cons]
      omega

/-- With a mark behind them there is a byte for each of the parts. -/
theorem Grammar.Joined.length_lt {α : Type} {Inner : Bytes → α → Prop} {text : Bytes}
    {values : List α} (h : Joined Inner text values) (close : UInt8) (rest : Bytes) :
    values.length < (text ++ close :: rest).length + 1 := by
  have hle := h.length_le
  rw [List.length_append, List.length_cons]
  omega

namespace Reader

/-! ### Parts with commas between them -/

/-- The reader, called where a part may start, accepts the texts of the grammar. -/
structure Parses {α : Type} (Opens : UInt8 → Prop) (part : Reader α)
    (Inner : Bytes → α → Prop) : Prop where
  /-- Every text starts so. -/
  opens : ∀ {text : Bytes} {a : α}, Inner text a → ∃ b tail, text = b :: tail ∧ Opens b
  /-- Every text is accepted, in front of what cannot go on with a number. -/
  complete : ∀ {text rest : Bytes} {a : α}, Inner text a → EndsNumber rest →
    part (text ++ rest) = .ok (a, rest)
  /-- Nothing else is accepted. -/
  sound : ∀ {b : UInt8} {left rest : Bytes} {a : α}, Opens b → part (b :: left) = .ok (a, rest) →
    ∃ text, Inner text a ∧ b :: left = text ++ rest

namespace Loop

variable {α β : Type} {close : UInt8} {Opens : UInt8 → Prop} {part : Reader α}
  {run : Nat → List α → Reader β} {finish : List α → β} {Inner : Bytes → α → Prop}

/-- A round reads a part and leaves the blanks behind it. -/
theorem step_padded (hloop : Loop close Opens part run finish) (hpart : Parses Opens part Inner)
    {joint before text after rest : Bytes} {done : List α} {a : α} (fuel : Nat)
    (hjoint : Joint done joint) (hbefore : IsGap before) (ha : Inner text a) (hafter : IsGap after)
    (hrest : EndsNumber rest) :
    run (fuel + 1) done (joint ++ (before ++ text ++ after ++ rest)) =
      run fuel (done ++ [a]) (after ++ rest) := by
  have hread := hpart.complete ha (endsNumber_gap hafter hrest)
  obtain ⟨b, tail, rfl, hb⟩ := hpart.opens ha
  rw [List.append_assoc, List.append_assoc, List.cons_append,
    hloop.step fuel hjoint hbefore hb, ← List.cons_append, hread]
  rfl

/-- Joined parts are read, with the mark behind them. -/
theorem complete (hloop : Loop close Opens part run finish) (hpart : Parses Opens part Inner)
    {text : Bytes} {more : List α} (h : Joined Inner text more) {joint : Bytes} {done : List α}
    {fuel : Nat} (hjoint : Joint done joint) (hfuel : more.length < fuel) (rest : Bytes) :
    run fuel done (joint ++ (text ++ close :: rest)) = .ok (finish (done ++ more), rest) := by
  induction h generalizing joint done fuel with
  | one hpadded =>
      obtain ⟨hbefore, ha, hafter⟩ := hpadded
      obtain ⟨fuel, rfl⟩ := Nat.exists_eq_add_of_le' (show 2 ≤ fuel from hfuel)
      rw [hloop.step_padded hpart _ hjoint hbefore ha hafter (hloop.closes rest),
        hloop.stop _ _ hafter]
  | @more _ behind a others hpadded _ ih =>
      obtain ⟨hbefore, ha, hafter⟩ := hpadded
      obtain ⟨fuel, rfl⟩ := Nat.exists_eq_add_one_of_ne_zero (Nat.ne_zero_of_lt hfuel)
      have hdone := List.append_ne_nil_of_right_ne_nil done (List.cons_ne_nil a [])
      have hmore := ih (.comma hdone hafter) (Nat.lt_of_succ_lt_succ hfuel)
      rw [List.append_assoc, List.append_assoc] at hmore
      rw [List.append_assoc, List.cons_append,
        hloop.step_padded hpart _ hjoint hbefore ha hafter (by rintro b ⟨⟩; decide)]
      exact hmore

/-- What the loop accepts is the mark, with blanks in front of it, or joined parts with the mark
behind them. -/
theorem sound (hloop : Loop close Opens part run finish) (hpart : Parses Opens part Inner)
    {fuel : Nat} {done : List α} {unread rest : Bytes} {r : β}
    (h : run fuel done unread = .ok (r, rest)) :
    (∃ gap, IsGap gap ∧ unread = gap ++ close :: rest ∧ r = finish done)
      ∨ ∃ joint text more, Joint done joint ∧ Joined Inner text more
        ∧ unread = joint ++ (text ++ close :: rest) ∧ r = finish (done ++ more) := by
  induction fuel generalizing done unread with
  | zero =>
      rcases hloop.inv h with hstop | ⟨_, _, _, _, _, _, _, hfuel, _⟩
      · exact .inl hstop
      · cases hfuel
  | succ fuel ih =>
      rcases hloop.inv h with hstop |
        ⟨_, joint, before, b, left, a, left', hfuel, hjoint, hbefore, hb, rfl, hread, hmore⟩
      · exact .inl hstop
      · obtain rfl := Nat.succ.inj hfuel
        obtain ⟨text, ha, htext⟩ := hpart.sound hb hread
        refine .inr ?_
        rcases ih hmore with ⟨after, hafter, rfl, rfl⟩ | ⟨_, behind, more, hnext, hjoined, rfl, rfl⟩
        · refine ⟨joint, before ++ text ++ after, [a], hjoint, .one (.mk hbefore ha hafter),
            ?_, rfl⟩
          rw [htext]
          simp only [List.append_assoc]
        · obtain ⟨after, hafter, rfl⟩ := hnext.exists_of_append
          refine ⟨joint, _, a :: more, hjoint, .more (.mk hbefore ha hafter) hjoined, ?_, ?_⟩
          · rw [htext]
            simp only [List.append_assoc, List.cons_append, List.nil_append]
          · rw [List.append_assoc]
            rfl

end Loop

/-! ### Lists and objects -/

/-- The item reader accepts the texts of the grammar, behind blanks. -/
structure Accepts (item : Reader Json) (Inner : Bytes → Json → Prop) : Prop where
  /-- Every text starts with something that is neither blank nor the end of a list. -/
  opens : ∀ {text : Bytes} {v : Json}, Inner text v → ∃ b tail, text = b :: tail ∧ isGap b = false
    ∧ b ≠ 0x5d
  /-- Every text is accepted, in front of what cannot go on with a number. -/
  complete : ∀ {gap text rest : Bytes} {v : Json}, IsGap gap → Inner text v → EndsNumber rest →
    item (gap ++ (text ++ rest)) = .ok (v, rest)
  /-- Nothing else is accepted. -/
  sound : ∀ {unread rest : Bytes} {v : Json}, item unread = .ok (v, rest) →
    ∃ gap text, IsGap gap ∧ Inner text v ∧ unread = gap ++ (text ++ rest)

variable {item : Reader Json} {Inner : Bytes → Json → Prop}

/-- Behind the opening bracket the items of a list are read. -/
theorem Accepts.parses (h : Accepts item Inner) :
    Parses (fun b => isGap b = false ∧ b ≠ 0x5d) item Inner where
  opens := h.opens
  complete := by
    intro text rest v htext hrest
    have hgap : IsGap [] := nofun
    exact h.complete hgap htext hrest
  sound := by
    intro b left rest v hb hread
    obtain ⟨gap, text, hgap, htext, hunread⟩ := h.sound hread
    cases gap with
    | nil => exact ⟨text, htext, hunread⟩
    | cons b' gap =>
        obtain ⟨rfl, -⟩ := List.cons.inj hunread
        exact absurd (hgap b List.mem_cons_self) (by simp [hb.1])

/-- At its opening quote a field is read. -/
theorem Accepts.parses_member (h : Accepts item Inner) :
    Parses (· = 0x22) (member item) (Field Inner) where
  opens := by
    rintro _ _ ⟨hname, hbefore, hafter, hvalue⟩
    obtain ⟨tail, rfl, -⟩ := quoted_of_quoted hname
    exact ⟨0x22, _, rfl, rfl⟩
  complete := by
    rintro _ rest _ ⟨hname, hbefore, hafter, hvalue⟩ hrest
    obtain ⟨tail, rfl, hquoted⟩ := quoted_of_quoted hname
    have hread := h.complete hafter hvalue hrest
    simp only [List.cons_append, List.append_assoc]
    rw [member, List.drop_succ_cons, List.drop_zero, hquoted]
    simp only [bind, Except.bind]
    rw [skipGap_gap_cons hbefore (by decide)]
    simp only
    rw [if_neg (by decide), hread]
  sound := by
    rintro b left rest ⟨s, v⟩ rfl hread
    obtain ⟨⟨name, left'⟩, hquoted, hmore⟩ := exists_of_bind_eq_ok hread
    obtain ⟨text, htext, hleft⟩ := quoted_eq_ok_iff.1 hquoted
    dsimp only at hmore
    rcases cases_skipGap left' with ⟨hskip, -⟩ | ⟨before, b, left', hskip, hbefore, -, rfl⟩
    · rw [hskip] at hmore
      cases hmore
    rw [hskip] at hmore
    simp only at hmore
    by_cases hcolon : b = 0x3a
    · subst hcolon
      rw [if_neg (by decide)] at hmore
      obtain ⟨⟨w, rest'⟩, hitem, hend⟩ := exists_of_bind_eq_ok hmore
      obtain ⟨after, value, hafter, hvalue, rfl⟩ := h.sound hitem
      cases hend
      exact ⟨_, .mk htext hbefore hafter hvalue, by simpa using hleft⟩
    · rw [if_pos (by simpa using hcolon)] at hmore
      cases hmore

/-! ### Values -/

theorem word_eq_ok_iff {v w : Json} {word' unread rest : Bytes} :
    word v word' unread = .ok (w, rest) ↔ unread = word' ++ rest ∧ w = v := by
  induction word' generalizing unread with
  | nil =>
      constructor
      · intro h
        cases h
        exact ⟨rfl, rfl⟩
      · rintro ⟨rfl, rfl⟩
        rfl
  | cons expected word' ih =>
      cases unread with
      | nil => exact ⟨nofun, fun h => absurd h.1 nofun⟩
      | cons b unread =>
          rw [word]
          by_cases hb : b = expected
          · rw [if_pos (by simpa using hb), ih, List.cons_append, List.cons.injEq]
            exact ⟨fun h => ⟨⟨hb, h.1⟩, h.2⟩, fun h => ⟨h.1.2, h.2⟩⟩
          · rw [if_neg (by simpa using hb)]
            exact ⟨nofun, fun h => absurd (List.cons.inj h.1).1 hb⟩

/-- A scalar starts neither with a blank nor with the end of a list. -/
theorem opens_scalar {text : Bytes} {v : Json} (h : Scalar text v) :
    ∃ b tail, text = b :: tail ∧ isGap b = false ∧ Ascii.isBlank b = false ∧ b ≠ 0x5d := by
  cases h with
  | null => exact ⟨_, _, rfl, by decide⟩
  | true => exact ⟨_, _, rfl, by decide⟩
  | false => exact ⟨_, _, rfl, by decide⟩
  | @number n v hv =>
      rcases text_cases n with ⟨-, htext⟩ | ⟨-, htext, b, tail, hunsigned, hb⟩
      · exact ⟨_, _, htext, by decide⟩
      · exact ⟨b, tail, htext.trans hunsigned, opens_digit hb⟩
  | string hquoted =>
      obtain ⟨tail, rfl, -⟩ := quoted_of_quoted hquoted
      exact ⟨_, _, rfl, by decide⟩

theorem opens_value {depth : Nat} {text : Bytes} {v : Json} (h : Grammar.Value depth text v) :
    ∃ b tail, text = b :: tail ∧ isGap b = false ∧ Ascii.isBlank b = false ∧ b ≠ 0x5d := by
  cases depth with
  | zero => exact opens_scalar h
  | succ depth =>
      rcases h with h | h
      · exact opens_scalar h
      · cases h <;> exact ⟨_, _, rfl, by decide⟩

theorem value_gap (depth : Nat) {gap : Bytes} (hgap : IsGap gap) (unread : Bytes) :
    value depth (gap ++ unread) = value depth unread := by
  unfold value
  rw [skipGap_append hgap]

theorem value_minus_byte (depth : Nat) (unread : Bytes) :
    value depth (0x2d :: unread) = number true unread := by
  unfold value
  rfl

theorem value_of_scalar (depth : Nat) {text rest : Bytes} {v : Json} (h : Scalar text v)
    (hrest : EndsNumber rest) :
    value depth (text ++ rest) = .ok (v, rest) := by
  cases h with
  | null =>
      unfold value
      rfl
  | true =>
      unfold value
      rfl
  | false =>
      unfold value
      rfl
  | @number n v hv =>
      have hread :=
        number_eq_ok_iff.2 ⟨n, v, rfl, rfl, Numeral.ends_of_endsNumber hrest _ _, hv, rfl⟩
      rcases text_cases n with ⟨hneg, htext⟩ | ⟨hneg, htext, b, tail, hunsigned, hb⟩
      · rw [hneg] at hread
        rw [htext]
        exact (value_minus_byte depth _).trans hread
      · rw [hneg, hunsigned] at hread
        rw [htext, hunsigned]
        exact (value_digit depth hb _).trans hread
  | string hquoted =>
      obtain ⟨tail, rfl, hread⟩ := quoted_of_quoted hquoted
      rw [List.cons_append, value_quote, hread]
      rfl

/-- What a value is that the reader accepts: a scalar, or brackets around what the loops accept. -/
theorem value_inv {depth : Nat} {unread rest : Bytes} {v : Json}
    (h : value depth unread = .ok (v, rest)) :
    ∃ gap text, IsGap gap ∧ unread = gap ++ text
      ∧ ((∃ scalar, Scalar scalar v ∧ text = scalar ++ rest)
        ∨ (∃ depth' left values, depth = depth' + 1 ∧ text = 0x5b :: left ∧ v = .array values
          ∧ items (value depth') (left.length + 1) [] left = .ok (values, rest))
        ∨ ∃ depth' left fields, depth = depth' + 1 ∧ text = 0x7b :: left ∧ v = .object fields
          ∧ members (value depth') (left.length + 1) true [] left = .ok (fields, rest)) := by
  rcases cases_skipGap unread with ⟨hskip, -⟩ | ⟨gap, b, left, hskip, hgap, -, rfl⟩
  · unfold value at h
    rw [hskip] at h
    cases h
  refine ⟨gap, b :: left, hgap, rfl, ?_⟩
  unfold value at h
  rw [hskip] at h
  simp only at h
  split at h
  · rename_i hb
    obtain ⟨rfl, rfl⟩ := word_eq_ok_iff.1 h
    obtain rfl := eq_of_beq hb
    exact .inl ⟨_, .null, rfl⟩
  split at h
  · rename_i hb
    obtain ⟨rfl, rfl⟩ := word_eq_ok_iff.1 h
    obtain rfl := eq_of_beq hb
    exact .inl ⟨_, .true, rfl⟩
  split at h
  · rename_i hb
    obtain ⟨rfl, rfl⟩ := word_eq_ok_iff.1 h
    obtain rfl := eq_of_beq hb
    exact .inl ⟨_, .false, rfl⟩
  split at h
  · rename_i hb
    obtain ⟨n, w, hneg, rfl, -, hw, rfl⟩ := number_eq_ok_iff.1 h
    obtain rfl := eq_of_beq hb
    refine .inl ⟨n.text, .number hw, ?_⟩
    rcases text_cases n with ⟨-, htext⟩ | ⟨hneg', -⟩
    · rw [htext]
      rfl
    · exact absurd (hneg.symm.trans hneg') nofun
  split at h
  · obtain ⟨n, w, hneg, hunread, -, hw, rfl⟩ := number_eq_ok_iff.1 h
    refine .inl ⟨n.text, .number hw, ?_⟩
    rcases text_cases n with ⟨hneg', -⟩ | ⟨-, htext, -⟩
    · exact absurd (hneg'.symm.trans hneg) nofun
    · rw [htext, hunread]
  split at h
  · rename_i hb
    obtain ⟨⟨s, rest'⟩, hquoted, heq⟩ := map_eq_ok_iff.1 h
    cases heq
    obtain ⟨text, htext, hunread⟩ := quoted_eq_ok_iff.1 hquoted
    obtain rfl := eq_of_beq hb
    exact .inl ⟨text, .string htext, hunread⟩
  split at h
  · rename_i hb
    obtain rfl := eq_of_beq hb
    cases depth with
    | zero => cases h
    | succ depth =>
        obtain ⟨⟨values, rest'⟩, hitems, heq⟩ := map_eq_ok_iff.1 h
        cases heq
        exact .inr (.inl ⟨depth, left, values, rfl, rfl, rfl, hitems⟩)
  split at h
  · rename_i hb
    obtain rfl := eq_of_beq hb
    cases depth with
    | zero => cases h
    | succ depth =>
        obtain ⟨⟨fields, rest'⟩, hmembers, heq⟩ := map_eq_ok_iff.1 h
        cases heq
        exact .inr (.inr ⟨depth, left, fields, rfl, rfl, rfl, hmembers⟩)
  · cases h

/-- Brackets around values are read, where one more bracket may be opened. -/
theorem value_of_bracketed {depth : Nat} (hitem : Accepts (value depth) (Grammar.Value depth))
    {text : Bytes} {v : Json} (h : Bracketed (Grammar.Value depth) text v) (rest : Bytes) :
    value (depth + 1) (text ++ rest) = .ok (v, rest) := by
  cases h with
  | @emptyList gap hgap =>
      have hread :
          items (value depth) ((gap ++ 0x5d :: rest).length + 1) [] (gap ++ 0x5d :: rest) =
            .ok ([], rest) :=
        (loop_items (value depth)).stop _ [] hgap
      rw [List.cons_append, List.append_assoc, List.singleton_append, value_bracket, hread]
      rfl
  | @list text values hvalues =>
      have hread :
          items (value depth) ((text ++ 0x5d :: rest).length + 1) [] (text ++ 0x5d :: rest) =
            .ok (values, rest) :=
        (loop_items (value depth)).complete hitem.parses hvalues .first
          (hvalues.length_lt 0x5d rest) rest
      rw [List.cons_append, List.append_assoc, List.singleton_append, value_bracket, hread]
      rfl
  | @emptyObject gap hgap =>
      have hread :
          members (value depth) ((gap ++ 0x7d :: rest).length + 1) true [] (gap ++ 0x7d :: rest) =
            .ok ([], rest) :=
        (loop_members (value depth)).stop _ [] hgap
      rw [List.cons_append, List.append_assoc, List.singleton_append, value_brace, hread]
      rfl
  | @object text fields hfields =>
      have hread :
          members (value depth) ((text ++ 0x7d :: rest).length + 1) true [] (text ++ 0x7d :: rest) =
            .ok (gathered fields, rest) :=
        (loop_members (value depth)).complete hitem.parses_member hfields .first
          (hfields.length_lt 0x7d rest) rest
      rw [List.cons_append, List.append_assoc, List.singleton_append, value_brace, hread]
      rfl

theorem bracketed_of_items {depth : Nat} (hitem : Accepts (value depth) (Grammar.Value depth))
    {left rest : Bytes} {values : List Json} {fuel : Nat}
    (h : items (value depth) fuel [] left = .ok (values, rest)) :
    ∃ text, Bracketed (Grammar.Value depth) text (.array values) ∧ 0x5b :: left = text ++ rest := by
  have hrun : (fun fuel done => items (value depth) fuel (List.reverse done)) fuel [] left =
      .ok (values, rest) := h
  rcases (loop_items (value depth)).sound hitem.parses hrun with
    ⟨gap, hgap, rfl, rfl⟩ | ⟨_, text, more, hjoint, hjoined, rfl, rfl⟩
  · exact ⟨_, .emptyList hgap, by simp⟩
  · obtain rfl := hjoint.eq_nil
    exact ⟨_, .list hjoined, by simp⟩

theorem bracketed_of_members {depth : Nat} (hitem : Accepts (value depth) (Grammar.Value depth))
    {left rest : Bytes} {fields : Fields} {fuel : Nat}
    (h : members (value depth) fuel true [] left = .ok (fields, rest)) :
    ∃ text, Bracketed (Grammar.Value depth) text (.object fields)
      ∧ 0x7b :: left = text ++ rest := by
  have hrun :
      (fun fuel done => members (value depth) fuel (List.isEmpty done) (gathered done)) fuel
        [] left =
      .ok (fields, rest) := h
  rcases (loop_members (value depth)).sound hitem.parses_member hrun with
    ⟨gap, hgap, rfl, rfl⟩ | ⟨_, text, more, hjoint, hjoined, rfl, rfl⟩
  · exact ⟨_, .emptyObject hgap, by simp⟩
  · obtain rfl := hjoint.eq_nil
    exact ⟨_, .object hjoined, by simp⟩

/-- **The reader of values accepts the values of the grammar**, with as many brackets open as it may
open. -/
theorem accepts_value (depth : Nat) : Accepts (value depth) (Grammar.Value depth) := by
  induction depth with
  | zero =>
      refine ⟨fun h => ?_, fun hgap h hrest => ?_, fun h => ?_⟩
      · obtain ⟨b, tail, htext, hgap, -, hclose⟩ := opens_value h
        exact ⟨b, tail, htext, hgap, hclose⟩
      · rw [value_gap 0 hgap]
        exact value_of_scalar 0 h hrest
      · obtain ⟨gap, _, hgap, rfl,
          ⟨scalar, hscalar, rfl⟩ | ⟨_, _, _, hdepth, -⟩ | ⟨_, _, _, hdepth, -⟩⟩ := value_inv h
        · exact ⟨gap, scalar, hgap, hscalar, rfl⟩
        · cases hdepth
        · cases hdepth
  | succ depth ih =>
      refine ⟨fun h => ?_, fun hgap h hrest => ?_, fun h => ?_⟩
      · obtain ⟨b, tail, htext, hgap, -, hclose⟩ := opens_value h
        exact ⟨b, tail, htext, hgap, hclose⟩
      · rw [value_gap _ hgap]
        rcases h with hscalar | hbracketed
        · exact value_of_scalar _ hscalar hrest
        · exact value_of_bracketed ih hbracketed _
      · obtain ⟨gap, _, hgap, rfl,
          ⟨scalar, hscalar, rfl⟩ | ⟨depth', left, values, hdepth, rfl, rfl, hread⟩
          | ⟨depth', left, fields, hdepth, rfl, rfl, hread⟩⟩ := value_inv h
        · exact ⟨gap, scalar, hgap, .inl hscalar, rfl⟩
        · obtain rfl := Nat.succ.inj hdepth
          obtain ⟨text, htext, hleft⟩ := bracketed_of_items ih hread
          exact ⟨gap, text, hgap, .inr htext, congrArg (gap ++ ·) hleft⟩
        · obtain rfl := Nat.succ.inj hdepth
          obtain ⟨text, htext, hleft⟩ := bracketed_of_members ih hread
          exact ⟨gap, text, hgap, .inr htext, congrArg (gap ++ ·) hleft⟩

end Reader

/-! ### Documents -/

/-- **What is read as a value is the JSON of the value**, with as many brackets open as there may
be. -/
theorem parse_eq_ok_iff {bytes : Bytes} {v : Json} :
    parse bytes = .ok v ↔ Document Reader.maxDepth bytes v := by
  have haccepts := Reader.accepts_value Reader.maxDepth
  constructor
  · intro h
    obtain ⟨w, hdocument, rfl⟩ : ∃ w, Reader.document bytes = .ok w ∧ w = v := by
      unfold parse at h
      cases hdocument : Reader.document bytes with
      | error failure =>
          rw [hdocument] at h
          cases h
      | ok w =>
          rw [hdocument] at h
          exact ⟨w, rfl, Except.ok.inj h⟩
    obtain ⟨⟨w', rest⟩, hvalue, hend⟩ := exists_of_bind_eq_ok hdocument
    obtain ⟨before, text, hbefore, htext, rfl⟩ := haccepts.sound hvalue
    dsimp only at hend
    rcases Reader.cases_skipGap rest with ⟨hskip, hafter⟩ | ⟨_, _, _, hskip, -⟩
    · rw [hskip] at hend
      cases hend
      rw [← List.append_assoc]
      exact .mk hbefore htext hafter
    · rw [hskip] at hend
      cases hend
  · rintro ⟨hbefore, htext, hafter⟩
    rename_i before text after
    have hend : EndsNumber after := by
      have hnil : EndsNumber [] := by rintro b ⟨⟩
      have hgap := Reader.endsNumber_gap hafter hnil
      rwa [List.append_nil] at hgap
    have hread := haccepts.complete hbefore htext hend
    have hskip : Reader.skipGap after = [] := List.dropWhile_eq_nil_iff.2 hafter
    rw [List.append_assoc, parse, Reader.document, hread]
    simp only [bind, Except.bind, hskip]

end ApiClient.Json
