import ApiClient.Proofs.JsonGrammar
import ApiClient.Proofs.JsonNumbers
import ApiClient.Proofs.Results

/-!
# ApiClient.Proofs.JsonLoops

The loop that reads the parts of a list or of an object.

Lists and objects are read by two loops of one form (`Loop`): parts of one kind, commas between
them, and a mark behind the last. At the mark the loop ends, at a part it hands on what the reader
of parts gives, an error included, and nothing else takes it to its end. What is known of a loop of
this form is known of both.
-/

namespace ApiClient.Json

open Bytes Grammar

namespace Reader

/-! ### Blanks -/

theorem skipGap_of_not_gap {b : UInt8} (h : isGap b = false) (rest : Bytes) :
    skipGap (b :: rest) = b :: rest := by
  rw [skipGap, List.dropWhile_cons, h]
  rfl

theorem skipGap_append {gap : Bytes} (hgap : IsGap gap) (unread : Bytes) :
    skipGap (gap ++ unread) = skipGap unread :=
  List.dropWhile_append_of_pos hgap

theorem skipGap_gap_cons {gap : Bytes} (hgap : IsGap gap) {b : UInt8} (hb : isGap b = false)
    (unread : Bytes) :
    skipGap (gap ++ b :: unread) = b :: unread := by
  rw [skipGap_append hgap, skipGap_of_not_gap hb]

theorem exists_of_skipGap {unread left : Bytes} {b : UInt8} (h : skipGap unread = b :: left) :
    ∃ gap, IsGap gap ∧ unread = gap ++ b :: left :=
  ⟨unread.takeWhile isGap, fun _ hb => List.mem_takeWhile_imp hb,
    by rw [← h]; exact List.takeWhile_append_dropWhile.symm⟩

theorem not_isGap_of_skipGap {unread left : Bytes} {b : UInt8} (h : skipGap unread = b :: left) :
    isGap b = false := by
  have hstop := List.head?_dropWhile_not isGap unread
  rw [show unread.dropWhile isGap = b :: left from h] at hstop
  simpa using hstop

/-- Behind blanks there is nothing, or a byte that is none. -/
theorem cases_skipGap (unread : Bytes) : (skipGap unread = [] ∧ IsGap unread)
    ∨ ∃ gap b left, skipGap unread = b :: left ∧ IsGap gap ∧ isGap b = false
      ∧ unread = gap ++ b :: left := by
  cases hskip : skipGap unread with
  | nil => exact .inl ⟨rfl, fun b hb => by simpa using List.dropWhile_eq_nil_iff.1 hskip b hb⟩
  | cons b left =>
      obtain ⟨gap, hgap, hall⟩ := exists_of_skipGap hskip
      exact .inr ⟨gap, b, left, rfl, hgap, not_isGap_of_skipGap hskip, hall⟩

/-- A blank cannot go on with a number. -/
theorem endsNumber_gap {gap rest : Bytes} (hgap : IsGap gap) (hrest : EndsNumber rest) :
    EndsNumber (gap ++ rest) := by
  cases gap with
  | nil => exact hrest
  | cons b gap =>
      rintro _ ⟨⟩
      have hb := hgap b List.mem_cons_self
      simp only [isGap, Bool.or_eq_true, beq_iff_eq] at hb
      rcases hb with ((rfl | rfl) | rfl) | rfl <;> decide

/-! ### Parts with commas between them -/

/-- What joins the next part to those that were read: a comma, unless it is the first. -/
inductive Joint {α : Type} : List α → Bytes → Prop where
  /-- In front of the first part. -/
  | first : Joint [] []
  /-- In front of any other. -/
  | comma {done : List α} {gap : Bytes} (hdone : done ≠ []) (h : IsGap gap) :
      Joint done (gap ++ [0x2c])

theorem Joint.eq_nil {α : Type} {joint : Bytes} (h : Joint ([] : List α) joint) : joint = [] := by
  cases h with
  | first => rfl
  | comma hdone _ => exact absurd rfl hdone

theorem Joint.exists_of_append {α : Type} {done : List α} {a : α} {joint : Bytes}
    (h : Joint (done ++ [a]) joint) : ∃ gap, IsGap gap ∧ joint = gap ++ [0x2c] := by
  generalize hall : done ++ [a] = all at h
  cases h with
  | first => simp at hall
  | comma _ hgap => exact ⟨_, hgap, rfl⟩

/-- A loop that reads parts up to and with a closing mark, one in each round, and makes something of
them. `Opens` tells the bytes at which it reads a part. -/
structure Loop {α β : Type} (close : UInt8) (Opens : UInt8 → Prop) (part : Reader α)
    (run : Nat → List α → Reader β) (finish : List α → β) : Prop where
  /-- The mark cannot go on with a number. -/
  closes : ∀ rest, EndsNumber (close :: rest)
  /-- The mark is no blank. -/
  solid_close : isGap close = false
  /-- No part starts with a blank. -/
  solid : ∀ {b}, Opens b → isGap b = false
  /-- At the mark the loop ends. -/
  finishes : ∀ {unread rest : Bytes} (fuel : Nat) (done : List α), skipGap unread = close :: rest →
    run (fuel + 1) done unread = .ok (finish done, rest)
  /-- At the first part it reads the part and goes on. -/
  first : ∀ {unread left : Bytes} {b : UInt8} (fuel : Nat), skipGap unread = b :: left → Opens b →
    run (fuel + 1) [] unread = part (b :: left) >>= fun read => run fuel [read.1] read.2
  /-- Behind a comma it reads the next part and goes on. -/
  next : ∀ {unread behind left : Bytes} {b : UInt8} {done : List α} (fuel : Nat), done ≠ [] →
    skipGap unread = 0x2c :: behind → skipGap behind = b :: left → Opens b →
    run (fuel + 1) done unread =
      part (b :: left) >>= fun read => run fuel (done ++ [read.1]) read.2
  /-- There is no other way to its end. -/
  cases_ok : ∀ {fuel : Nat} {done : List α} {unread : Bytes} {read : β × Bytes},
    run fuel done unread = .ok read → ∃ fuel' b left, fuel = fuel' + 1 ∧ skipGap unread = b :: left
      ∧ (b = close ∨ done = [] ∧ Opens b
        ∨ done ≠ [] ∧ b = 0x2c ∧ ∃ b' left', skipGap left = b' :: left' ∧ Opens b')

namespace Loop

variable {α β : Type} {close : UInt8} {Opens : UInt8 → Prop} {part : Reader α}
  {run : Nat → List α → Reader β} {finish : List α → β}

theorem stop (hloop : Loop close Opens part run finish) {gap rest : Bytes} (fuel : Nat)
    (done : List α) (hgap : IsGap gap) :
    run (fuel + 1) done (gap ++ close :: rest) = .ok (finish done, rest) :=
  hloop.finishes fuel done (skipGap_gap_cons hgap hloop.solid_close rest)

/-- The first part and the others are read alike, but for what joins them to those before. -/
theorem step (hloop : Loop close Opens part run finish) {joint gap left : Bytes} {b : UInt8}
    {done : List α} (fuel : Nat) (hjoint : Joint done joint) (hgap : IsGap gap) (hb : Opens b) :
    run (fuel + 1) done (joint ++ (gap ++ b :: left)) =
      part (b :: left) >>= fun read => run fuel (done ++ [read.1]) read.2 := by
  have hskip := skipGap_gap_cons hgap (hloop.solid hb) left
  cases hjoint with
  | first => exact hloop.first fuel hskip hb
  | comma hdone hbefore =>
      rw [List.append_assoc, List.singleton_append]
      exact hloop.next fuel hdone (skipGap_gap_cons hbefore (by decide) _) hskip hb

/-- What one round of the loop did, if the loop came to its end. -/
theorem inv (hloop : Loop close Opens part run finish) {fuel : Nat} {done : List α}
    {unread rest : Bytes} {r : β} (h : run fuel done unread = .ok (r, rest)) :
    (∃ gap, IsGap gap ∧ unread = gap ++ close :: rest ∧ r = finish done)
      ∨ ∃ fuel' joint gap b left a left', fuel = fuel' + 1 ∧ Joint done joint ∧ IsGap gap ∧ Opens b
        ∧ unread = joint ++ (gap ++ b :: left) ∧ part (b :: left) = .ok (a, left')
        ∧ run fuel' (done ++ [a]) left' = .ok (r, rest) := by
  obtain ⟨fuel, b, left, rfl, hskip, hcases⟩ := hloop.cases_ok h
  obtain ⟨gap, hgap, rfl⟩ := exists_of_skipGap hskip
  rcases hcases with rfl | ⟨rfl, hb⟩ | ⟨hdone, rfl, b', left', hskip', hb⟩
  · rw [hloop.finishes fuel done hskip] at h
    cases h
    exact .inl ⟨gap, hgap, rfl, rfl⟩
  · rw [hloop.first fuel hskip hb] at h
    obtain ⟨⟨a, left'⟩, hread, hmore⟩ := exists_of_bind_eq_ok h
    exact .inr ⟨fuel, [], gap, b, left, a, left', rfl, .first, hgap, hb, rfl, hread, hmore⟩
  · rw [hloop.next fuel hdone hskip hskip' hb] at h
    obtain ⟨gap', hgap', rfl⟩ := exists_of_skipGap hskip'
    obtain ⟨⟨a, behind⟩, hread, hmore⟩ := exists_of_bind_eq_ok h
    exact .inr ⟨fuel, gap ++ [0x2c], gap', b', left', a, behind, rfl, .comma hdone hgap, hgap', hb,
      by simp, hread, hmore⟩

end Loop

/-! ### Lists and objects -/

theorem endsNumber_bracket (rest : Bytes) : EndsNumber (0x5d :: rest) := by
  rintro b ⟨⟩
  decide

theorem endsNumber_brace (rest : Bytes) : EndsNumber (0x7d :: rest) := by
  rintro b ⟨⟩
  decide

/-- The items of a list are a loop. -/
theorem loop_items (item : Reader Json) : Loop 0x5d (fun b => isGap b = false ∧ b ≠ 0x5d) item
    (fun fuel done => items item fuel done.reverse) id where
  closes := endsNumber_bracket
  solid_close := by decide
  solid := And.left
  finishes := by
    intro unread rest fuel done hskip
    rw [items, hskip]
    simp only
    rw [if_pos (by decide), List.reverse_reverse]
    rfl
  first := by
    rintro unread left b fuel hskip ⟨-, hclose⟩
    rw [items, hskip]
    simp only
    rw [if_neg (by simpa using hclose), if_pos (by rfl)]
    rfl
  next := by
    rintro unread behind left b done fuel hdone hskip hskip' ⟨-, hclose⟩
    rw [items, hskip]
    simp only
    rw [if_neg (by decide), if_neg (by simpa using hdone), if_pos (by decide), hskip']
    simp only [List.reverse_append]
    rw [if_neg (by simpa using hclose)]
    rfl
  cases_ok := by
    intro fuel done unread read h
    cases fuel with
    | zero => cases h
    | succ fuel =>
        rw [items] at h
        split at h
        · cases h
        next b left hskip =>
          refine ⟨fuel, b, left, rfl, hskip, ?_⟩
          split at h
          · next hclose => exact .inl (eq_of_beq hclose)
          next hclose =>
            split at h
            · next hdone =>
              have hsolid := not_isGap_of_skipGap hskip
              exact .inr (.inl ⟨by simpa using hdone, hsolid, by simpa using hclose⟩)
            next hdone =>
              split at h
              · next hcomma =>
                split at h
                · cases h
                next b' left' hskip' =>
                  split at h
                  · cases h
                  next hclose' =>
                    have hsolid := not_isGap_of_skipGap hskip'
                    exact .inr (.inr ⟨by simpa using hdone, eq_of_beq hcomma, b', left', hskip',
                      hsolid, by simpa using hclose'⟩)
              · cases h

theorem gathered_append (fields : Fields) (field : String × Json) :
    gathered (fields ++ [field]) = insertField field.1 field.2 (gathered fields) := by
  rw [gathered, List.foldl_append]
  rfl

/-- The fields of an object are a loop. -/
theorem loop_members (item : Reader Json) : Loop 0x7d (· = 0x22) (member item)
    (fun fuel done => members item fuel done.isEmpty (gathered done)) gathered where
  closes := endsNumber_brace
  solid_close := by decide
  solid := by
    rintro b rfl
    decide
  finishes := by
    intro unread rest fuel done hskip
    rw [members, hskip]
    rfl
  first := by
    rintro unread left b fuel hskip rfl
    rw [members, hskip]
    rfl
  next := by
    rintro unread behind left b done fuel hdone hskip hskip' rfl
    have hmore (field : String × Json) : (done ++ [field]).isEmpty = false :=
      List.isEmpty_eq_false_iff.2 (List.append_ne_nil_of_right_ne_nil done (List.cons_ne_nil _ []))
    rw [members, hskip]
    simp only [hmore, gathered_append]
    rw [if_neg (by decide), if_neg (by simpa using hdone), if_pos (by decide), hskip']
    rfl
  cases_ok := by
    intro fuel done unread read h
    cases fuel with
    | zero => cases h
    | succ fuel =>
        rw [members] at h
        split at h
        · cases h
        next b left hskip =>
          refine ⟨fuel, b, left, rfl, hskip, ?_⟩
          split at h
          · next hclose => exact .inl (eq_of_beq hclose)
          split at h
          · next hdone =>
            split at h
            · next hquote => exact .inr (.inl ⟨by simpa using hdone, eq_of_beq hquote⟩)
            · cases h
          next hdone =>
            split at h
            · next hcomma =>
              split at h
              · cases h
              next b' left' hskip' =>
                split at h
                · next hquote =>
                  exact .inr (.inr ⟨by simpa using hdone, eq_of_beq hcomma, b', left', hskip',
                    eq_of_beq hquote⟩)
                · split at h <;> cases h
            · cases h

end Reader

end ApiClient.Json
