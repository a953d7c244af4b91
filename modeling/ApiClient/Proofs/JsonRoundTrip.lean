import ApiClient.Codec.Json
import ApiClient.Proofs.JsonLoops
import ApiClient.Proofs.Rereading

/-!
# ApiClient.Proofs.JsonRoundTrip

What the compact text of a value is read as.

The reader recurses on the number of brackets that may still be opened, and the induction follows
it. At each depth a value is read as itself with its doubles reread if it fits, and is refused for
its nesting if it does not (`Reads`). Items and fields are parts of a loop, and of such a loop it is
one induction on the parts that are still ahead (`Loop.reads_parts`).

An object is built by setting one field after the other. With distinct names each field is new, so
the fields arrive in their order.
-/

namespace ApiClient

namespace Json

open Bytes Grammar Reader

/-! ### Values -/

mutual

/-- The property holds of the value and of all values in it. -/
def Everywhere (p : Json → Prop) : Json → Prop
  | .array items => p (.array items) ∧ EverywhereIn p items
  | .object fields => p (.object fields) ∧ EverywhereUnder p fields
  | value => p value

/-- The property holds of the items and of all values in them. -/
def EverywhereIn (p : Json → Prop) : List Json → Prop
  | [] => True
  | item :: rest => Everywhere p item ∧ EverywhereIn p rest

/-- The property holds of the values of fields and of all values in them. -/
def EverywhereUnder (p : Json → Prop) : List (String × Json) → Prop
  | [] => True
  | (_, value) :: rest => Everywhere p value ∧ EverywhereUnder p rest

end

/-- A number is an integer of 64 bits, with or without a sign, or a finite double, and names of
fields are distinct. -/
def IsRegular : Json → Prop
  | .number (.int i) => -0x8000000000000000 ≤ i ∧ i < 0x10000000000000000
  | .number (.double d) => d.IsFinite
  | .object fields => (fields.map (·.1)).Nodup
  | _ => True

/-- A double has a short text. -/
def IsShort : Json → Prop
  | .number (.double d) => d.IsShort
  | _ => True

mutual

/-- The number of brackets that are open at once. -/
def height : Json → Nat
  | .array items => heightIn items + 1
  | .object fields => heightUnder fields + 1
  | _ => 0

/-- The number of brackets that are open at once in the items. -/
def heightIn : List Json → Nat
  | [] => 0
  | item :: rest => max (height item) (heightIn rest)

/-- The number of brackets that are open at once in the values of fields. -/
def heightUnder : List (String × Json) → Nat
  | [] => 0
  | (_, value) :: rest => max (height value) (heightUnder rest)

end

mutual

/-- The value with every double replaced by the number that its text is read as. -/
def reread : Json → Json
  | .number (.double d) => .number (.double d.reread)
  | .array items => .array (rereadIn items)
  | .object fields => .object (rereadUnder fields)
  | value => value

/-- The items with every double reread. -/
def rereadIn : List Json → List Json
  | [] => []
  | item :: rest => reread item :: rereadIn rest

/-- The fields with every double reread. -/
def rereadUnder : List (String × Json) → List (String × Json)
  | [] => []
  | (name, value) :: rest => (name, reread value) :: rereadUnder rest

end

mutual

/-- Short texts are read as the value itself. -/
theorem reread_of_isShort :
    ∀ {value : Json}, value.Everywhere IsRegular → value.Everywhere IsShort →
    value.reread = value
  | .null, _, _ => rfl
  | .bool _, _, _ => rfl
  | .number (.int _), _, _ => rfl
  | .number (.double _), hregular, hshort =>
      by rw [reread, Double.reread_of_isShort hregular hshort]
  | .string _, _, _ => rfl
  | .array _, hregular, hshort => by rw [reread, rereadIn_of_isShort hregular.2 hshort.2]
  | .object _, hregular, hshort => by rw [reread, rereadUnder_of_isShort hregular.2 hshort.2]

theorem rereadIn_of_isShort :
    ∀ {items : List Json}, EverywhereIn IsRegular items → EverywhereIn IsShort items →
    rereadIn items = items
  | [], _, _ => rfl
  | _ :: _, hregular, hshort => by
      rw [rereadIn, reread_of_isShort hregular.1 hshort.1, rereadIn_of_isShort hregular.2 hshort.2]

theorem rereadUnder_of_isShort :
    ∀ {fields : List (String × Json)}, EverywhereUnder IsRegular fields →
    EverywhereUnder IsShort fields → rereadUnder fields = fields
  | [], _, _ => rfl
  | (_, _) :: _, hregular, hshort => by
      rw [rereadUnder, reread_of_isShort hregular.1 hshort.1,
        rereadUnder_of_isShort hregular.2 hshort.2]

end

/-! ### The first character -/

/-- A digit is neither a blank nor the end of a list. -/
theorem opens_digit {b : UInt8} (hb : Ascii.isDigit b = true) :
    isGap b = false ∧ Ascii.isBlank b = false ∧ b ≠ 0x5d := by
  have hall : ∀ k : Fin 256, Ascii.isDigit (UInt8.ofNat k) = true → isGap (UInt8.ofNat k) = false
      ∧ Ascii.isBlank (UInt8.ofNat k) = false ∧ UInt8.ofNat k ≠ 0x5d := by decide +kernel
  exact forall_byte (p := fun b => Ascii.isDigit b = true → isGap b = false
    ∧ Ascii.isBlank b = false ∧ b ≠ 0x5d)
    hall b hb

/-- The character starts the text of a value. -/
def StartsValue (c : Char) : Prop :=
  c.isDigit = true ∨ c ∈ ['n', 't', 'f', '-', '\x22', '\x5b', '\x7b']

theorem StartsValue.byte {c : Char} (h : StartsValue c) :
    c.toNat < 0x80 ∧ isGap (Ascii.byte c) = false
    ∧ Ascii.isBlank (Ascii.byte c) = false ∧ Ascii.byte c ≠ 0x5d := by
  rcases h with hdigit | hmem
  · exact ⟨Nat.lt_of_le_of_lt (isDigit_bounds hdigit).2 (by decide),
      opens_digit (isDigit_byte hdigit)⟩
  · simp only [List.mem_cons, List.not_mem_nil, or_false] at hmem
    rcases hmem with rfl | rfl | rfl | rfl | rfl | rfl | rfl <;> decide

theorem exists_render_eq_cons {n : Json.Number} (h : IsRegular (.number n)) :
    ∃ c chars, n.render.toList = c :: chars ∧ StartsValue c := by
  cases n with
  | int i =>
      cases i with
      | ofNat k =>
          obtain ⟨c, others, hdigits⟩ :=
            List.exists_cons_of_ne_nil (Nat.toDigits_ne_nil (b := 10) (n := k))
          exact ⟨c, others, (toList_toString k).trans hdigits,
            .inl (areDigits_toDigits k c (hdigits ▸ List.mem_cons_self))⟩
      | negSucc k =>
          refine ⟨'-', (toString (k + 1)).toList, ?_, .inr (by decide)⟩
          rw [Number.render, show toString (Int.negSucc k) = "-" ++ toString (k + 1) from rfl,
            String.toList_append]
          rfl
  | double d =>
      obtain ⟨c, chars, hc, hchars, -⟩ := exists_bareText h
      rw [Number.render, d.toList_render, hchars]
      cases d.isNegative with
      | false => exact ⟨c, chars, rfl, .inl hc⟩
      | true => exact ⟨'-', c :: chars, rfl, .inr (by decide)⟩

theorem exists_print_eq_cons {v : Json} (h : v.Everywhere IsRegular) :
    ∃ c chars, v.print = c :: chars ∧ StartsValue c := by
  cases v with
  | null => exact ⟨_, _, rfl, .inr (by decide)⟩
  | bool b => cases b <;> exact ⟨_, _, rfl, .inr (by decide)⟩
  | number n => exact exists_render_eq_cons h
  | string s => exact ⟨_, _, rfl, .inr (by decide)⟩
  | array items => exact ⟨_, _, rfl, .inr (by decide)⟩
  | object fields => exact ⟨_, _, rfl, .inr (by decide)⟩

/-- The text of a value starts neither with a blank nor with the end of a list. -/
theorem exists_text_eq_cons {v : Json} (h : v.Everywhere IsRegular) :
    ∃ b tail, ofChars v.print = b :: tail
    ∧ isGap b = false ∧ Ascii.isBlank b = false ∧ b ≠ 0x5d := by
  obtain ⟨c, chars, hprint, hc⟩ := exists_print_eq_cons h
  obtain ⟨hascii, hbyte⟩ := hc.byte
  exact ⟨Ascii.byte c, ofChars chars, by rw [hprint, ofChars_cons_of_ascii hascii], hbyte⟩

/-! ### Nesting -/

/-- What reading something gives that is `height` brackets high, where `depth` brackets may be
opened: the thing itself, or the refusal of its nesting. -/
def Reads {α : Type} (depth height : Nat) (result : Except Failure (α × Bytes)) (v : α)
    (rest : Bytes) : Prop :=
  if height ≤ depth then result = .ok (v, rest)
  else ∃ beyond, result = .error ⟨.recursionLimit, beyond⟩

section Reads

variable {α β : Type} {depth : Nat} {rest : Bytes}

theorem reads_ok (v : α) : Reads depth 0 (.ok (v, rest)) v rest := by
  rw [Reads, if_pos (Nat.zero_le _)]

/-- A bracket around it takes one of those that may be opened. -/
theorem Reads.map {height : Nat} {result : Except Failure (α × Bytes)} {v : α}
    (h : Reads depth height result v rest) (f : α → β) :
    Reads (depth + 1) (height + 1) (result.map fun (v, rest) => (f v, rest)) (f v) rest := by
  unfold Reads at *
  by_cases hfits : height ≤ depth
  · rw [if_pos hfits] at h
    rw [if_pos (Nat.succ_le_succ hfits), h]
    rfl
  · rw [if_neg hfits] at h
    rw [if_neg (by omega)]
    obtain ⟨beyond, h⟩ := h
    exact ⟨beyond, by rw [h]; rfl⟩

/-- One after the other, the higher one decides. -/
theorem Reads.bind {first next : Nat} {result : Except Failure (α × Bytes)} {v : α} {w : β}
    {unread : Bytes} {f : α × Bytes → Except Failure (β × Bytes)}
    (h : Reads depth first result v unread) (hnext : Reads depth next (f (v, unread)) w rest) :
    Reads depth (max first next) (result >>= f) w rest := by
  unfold Reads at *
  by_cases hfirst : first ≤ depth
  · rw [if_pos hfirst] at h
    rw [h]
    show if _ then f (v, unread) = _ else ∃ beyond, f (v, unread) = _
    by_cases hfits : next ≤ depth
    · rw [if_pos hfits] at hnext
      rwa [if_pos (Nat.max_le.2 ⟨hfirst, hfits⟩)]
    · rw [if_neg hfits] at hnext
      rwa [if_neg fun hmax => hfits (Nat.max_le.1 hmax).2]
  · rw [if_neg hfirst] at h
    obtain ⟨beyond, h⟩ := h
    rw [if_neg fun hmax => hfirst (Nat.max_le.1 hmax).1, h]
    exact ⟨beyond, rfl⟩

end Reads

/-! ### Parts with commas between them -/

section Parts

variable {α β γ : Type}

/-- The characters of parts behind another part. -/
def printMore (text : γ → List Char) : List γ → List Char
  | [] => []
  | part :: rest => ',' :: (text part ++ printMore text rest)

/-- What follows a part cannot go on with it. -/
theorem endsNumber_printMore {close : UInt8} (hclose : ∀ rest, EndsNumber (close :: rest))
    (text : γ → List Char) (parts : List γ) (rest : Bytes) :
    EndsNumber (ofChars (printMore text parts) ++ close :: rest) := by
  cases parts with
  | nil => exact hclose rest
  | cons part parts =>
      rw [printMore, ofChars_cons_of_ascii (by decide)]
      rintro b ⟨⟩
      decide

theorem length_le_printMore (text : γ → List Char) (parts : List γ) :
    parts.length ≤ (ofChars (printMore text parts)).length := by
  induction parts with
  | nil => exact Nat.zero_le _
  | cons part parts ih =>
      rw [printMore, ofChars_cons_of_ascii (by decide), ofChars_append, List.length_cons,
        List.length_cons, List.length_append]
      omega

/-- The reader, called where a part may start, reads the text of the part, which is so high. -/
structure ReadsPart (Opens : UInt8 → Prop) (part : Reader α) (depth : Nat) (text : List Char)
    (height : Nat) (a : α) : Prop where
  /-- The text starts so. -/
  opens : ∃ b tail, ofChars text = b :: tail ∧ Opens b
  /-- The text is read, in front of what cannot go on with a number. -/
  reads : ∀ rest, EndsNumber rest → Reads depth height (part (ofChars text ++ rest)) a rest

namespace Reader.Loop

variable {close : UInt8} {Opens : UInt8 → Prop} {part : Reader α} {run : Nat → List α → Reader β}
  {finish : List α → β} {depth : Nat} {joint rest : Bytes} {done : List α}

/-- A round reads a part, and then the rounds behind it decide. -/
theorem reads_part (hloop : Loop close Opens part run finish) {text : List Char}
    {height next fuel : Nat} {a : α} {r : β} {unread : Bytes}
    (hpart : ReadsPart Opens part depth text height a) (hjoint : Joint done joint)
    (hunread : EndsNumber unread)
    (hnext : Reads depth next (run fuel (done ++ [a]) unread) r rest) :
    Reads depth (max height next) (run (fuel + 1) done (joint ++ (ofChars text ++ unread))) r
      rest := by
  have hgap : IsGap [] := nofun
  have hread := hpart.reads unread hunread
  obtain ⟨b, tail, htext, hb⟩ := hpart.opens
  rw [htext, List.cons_append] at hread ⊢
  rw [← List.nil_append (b :: (tail ++ unread)), hloop.step fuel hjoint hgap hb]
  exact hread.bind hnext

/-- Parts with commas between them are read, with the mark behind them. -/
theorem reads_parts (hloop : Loop close Opens part run finish) {text : γ → List Char}
    {height : γ → Nat} {value : γ → α} {first : γ} {more : List γ}
    (hparts : ∀ p ∈ first :: more, ReadsPart Opens part depth (text p) (height p) (value p))
    (hjoint : Joint done joint) {fuel : Nat} (hfuel : more.length + 1 < fuel) (rest : Bytes) :
    Reads depth (((first :: more).map height).foldr max 0)
      (run fuel done (joint ++ (ofChars (text first ++ printMore text more) ++ close :: rest)))
      (finish (done ++ (first :: more).map value)) rest := by
  have hgap : IsGap [] := nofun
  -- By induction on the parts behind the first, which may itself stand behind others.
  induction more generalizing first joint done fuel with
  | nil =>
      obtain ⟨fuel, rfl⟩ := Nat.exists_eq_add_of_le' (show 2 ≤ fuel from hfuel)
      have hend : run (fuel + 1) (done ++ [value first]) ([] ++ close :: rest) =
          .ok (finish (done ++ [value first]), rest) := hloop.stop fuel _ hgap
      rw [printMore, List.append_nil]
      refine hloop.reads_part (hparts first List.mem_cons_self) hjoint (hloop.closes rest) ?_
      rw [← List.nil_append (close :: rest), hend]
      exact reads_ok _
  | cons next more ih =>
      obtain ⟨fuel, rfl⟩ := Nat.exists_eq_add_one_of_ne_zero (Nat.ne_zero_of_lt hfuel)
      have hcomma : Joint (done ++ [value first]) ([] ++ [0x2c]) :=
        .comma (List.append_ne_nil_of_right_ne_nil done (List.cons_ne_nil _ [])) hgap
      have hmore := ih (fun p hmem => hparts p (List.mem_cons_of_mem _ hmem)) hcomma
        (Nat.lt_of_succ_lt_succ hfuel)
      rw [List.append_assoc done] at hmore
      rw [ofChars_append, List.append_assoc]
      refine hloop.reads_part (hparts first List.mem_cons_self) hjoint
        (endsNumber_printMore hloop.closes text (next :: more) rest) ?_
      rw [printMore, ofChars_cons_of_ascii (by decide)]
      exact hmore

end Reader.Loop

end Parts

/-! ### Lists -/

section Lists

variable {item : Reader Json} {depth : Nat}

theorem printItems_cons (item : Json) (rest : List Json) :
    printItems (item :: rest) = item.print ++ printMore print rest := by
  induction rest generalizing item with
  | nil => rw [printItems, printMore, List.append_nil]
  | cons next rest ih =>
      rw [printItems, printMore, ih]
      exact List.cons_ne_nil _ _

theorem heightIn_eq (items : List Json) : heightIn items = (items.map height).foldr max 0 := by
  induction items with
  | nil => rfl
  | cons item items ih => rw [heightIn, ih]; rfl

theorem rereadIn_eq (items : List Json) : rereadIn items = items.map reread := by
  induction items with
  | nil => rfl
  | cons item items ih => rw [rereadIn, ih]; rfl

/-- The item reader reads the text of the value. -/
def ReadsText (item : Reader Json) (depth : Nat) (v : Json) : Prop :=
  ∀ rest, EndsNumber rest → Reads depth v.height (item (ofChars v.print ++ rest)) v.reread rest

/-- The items of a list, and the bracket behind them. -/
theorem items_printItems {values : List Json} (hitem : ∀ v ∈ values, ReadsText item depth v)
    (hregular : ∀ v ∈ values, v.Everywhere IsRegular) {fuel : Nat} (hfuel : values.length < fuel)
    (rest : Bytes) : Reads depth (heightIn values)
      (Reader.items item fuel [] (ofChars (printItems values) ++ 0x5d :: rest)) (rereadIn values)
      rest := by
  obtain ⟨fuel, rfl⟩ := Nat.exists_eq_add_one_of_ne_zero (show fuel ≠ 0 by omega)
  cases values with
  | nil => exact reads_ok []
  | cons v values =>
      have hparts : ∀ w ∈ v :: values, ReadsPart (fun b => isGap b = false ∧ b ≠ 0x5d) item depth
          w.print w.height w.reread := by
        intro w hmem
        obtain ⟨b, tail, htext, hgap, -, hbracket⟩ := exists_text_eq_cons (hregular w hmem)
        exact ⟨⟨b, tail, htext, hgap, hbracket⟩, hitem w hmem⟩
      rw [printItems_cons, heightIn_eq, rereadIn_eq]
      exact (loop_items item).reads_parts hparts .first hfuel rest

/-! ### Objects -/

/-- The characters of a field. -/
def printField (field : String × Json) : List Char := printText field.1 ++ ':' :: field.2.print

theorem printFields_cons (field : String × Json) (rest : List (String × Json)) :
    printFields (field :: rest) = printField field ++ printMore printField rest := by
  induction rest generalizing field with
  | nil => rw [printFields, printMore, List.append_nil]; rfl
  | cons next rest ih =>
      rw [printFields, printMore, ih]
      · simp only [printField, List.append_assoc, List.cons_append]
      · exact List.cons_ne_nil _ _

theorem heightUnder_eq (fields : List (String × Json)) :
    heightUnder fields = (fields.map fun field => field.2.height).foldr max 0 := by
  induction fields with
  | nil => rfl
  | cons field fields ih => rw [heightUnder, ih]; rfl

theorem rereadUnder_eq (fields : List (String × Json)) :
    rereadUnder fields = fields.map fun field => (field.1, field.2.reread) := by
  induction fields with
  | nil => rfl
  | cons field fields ih => rw [rereadUnder, ih]; rfl

/-- A name that is not there yet is added behind the fields. -/
theorem insertField_of_not_mem {name : String} {fields : Fields} (h : name ∉ fields.map (·.1))
    (v : Json) : insertField name v fields = fields ++ [(name, v)] := by
  induction fields with
  | nil => rfl
  | cons field rest ih =>
      rw [List.map_cons, List.mem_cons, not_or] at h
      show (if field.1 = name then _ else field :: Entries.update name (fun _ => v) rest) = _
      rw [if_neg (Ne.symm h.1)]
      exact congrArg (field :: ·) (ih h.2)

/-- Fields with distinct names are gathered in their order. -/
theorem gathered_of_nodup {fields : Fields} (h : (fields.map (·.1)).Nodup) :
    gathered fields = fields := by
  induction fields using List.reverseRecOn with
  | nil => rfl
  | append_singleton fields field ih =>
      rw [List.map_append, List.map_singleton, List.nodup_append] at h
      have hnew : field.1 ∉ fields.map (·.1) := fun hmem =>
        h.2.2 _ hmem _ List.mem_cons_self rfl
      rw [gathered_append, ih h.1, insertField_of_not_mem hnew]

/-- A field is its name and the value behind the colon. -/
theorem readsPart_printField {field : String × Json} (hvalue : ReadsText item depth field.2) :
    ReadsPart (· = 0x22) (Reader.member item) depth (printField field) field.2.height
      (field.1, field.2.reread) where
  opens := by
    obtain ⟨tail, htail, -⟩ := quoted_printText field.1 (ofChars (':' :: field.2.print))
    exact ⟨0x22, tail, by rw [printField, ofChars_append, htail], rfl⟩
  reads := by
    intro rest hrest
    obtain ⟨tail, htail, hquoted⟩ :=
      quoted_printText field.1 (0x3a :: (ofChars field.2.print ++ rest))
    have htext : ofChars (printField field) ++ rest = 0x22 :: tail := by
      rw [printField, ofChars_append, ofChars_cons_of_ascii (by decide), List.append_assoc]
      exact htail
    have hstep : Reader.member item (0x22 :: tail) = item (ofChars field.2.print ++ rest) >>=
        fun read => .ok ((field.1, read.1), read.2) := by
      rw [Reader.member, List.drop_succ_cons, List.drop_zero, hquoted]
      rfl
    rw [htext, hstep, ← Nat.max_zero field.2.height]
    exact (hvalue rest hrest).bind (reads_ok (field.1, field.2.reread))

/-- The fields of an object, and the brace behind them. -/
theorem members_printFields {fields : List (String × Json)}
    (hitem : ∀ field ∈ fields, ReadsText item depth field.2) (hnames : (fields.map (·.1)).Nodup)
    {fuel : Nat} (hfuel : fields.length < fuel) (rest : Bytes) : Reads depth (heightUnder fields)
      (Reader.members item fuel true [] (ofChars (printFields fields) ++ 0x7d :: rest))
      (rereadUnder fields) rest := by
  obtain ⟨fuel, rfl⟩ := Nat.exists_eq_add_one_of_ne_zero (show fuel ≠ 0 by omega)
  cases fields with
  | nil => exact reads_ok []
  | cons field fields =>
      have hparts : ∀ f ∈ field :: fields, ReadsPart (· = 0x22) (Reader.member item) depth
          (printField f) f.2.height (f.1, f.2.reread) :=
        fun f hmem => readsPart_printField (hitem f hmem)
      have hgathered : gathered ((field :: fields).map fun f => (f.1, f.2.reread)) =
          (field :: fields).map fun f => (f.1, f.2.reread) :=
        gathered_of_nodup (by rwa [List.map_map])
      have hread := (loop_members item).reads_parts hparts .first hfuel rest
      rw [List.nil_append, List.nil_append, hgathered] at hread
      rw [printFields_cons, heightUnder_eq, rereadUnder_eq]
      exact hread

end Lists

/-! ### Whole values -/

theorem length_printItems_le {items : List Json} (hregular : EverywhereIn IsRegular items) :
    items.length ≤ (ofChars (printItems items)).length := by
  cases items with
  | nil => exact Nat.zero_le _
  | cons item items =>
      obtain ⟨b, tail, htext, -⟩ := exists_text_eq_cons hregular.1
      have hmore := length_le_printMore print items
      rw [printItems_cons, ofChars_append, htext, List.length_append, List.length_cons,
        List.length_cons]
      omega

theorem length_printFields_le (fields : List (String × Json)) :
    fields.length ≤ (ofChars (printFields fields)).length := by
  cases fields with
  | nil => exact Nat.zero_le _
  | cons field fields =>
      have hmore := length_le_printMore printField fields
      rw [printFields_cons, printField, ofChars_append, ofChars_append,
        ofChars_cons_of_ascii (by decide)]
      simp only [List.length_cons, List.length_append]
      omega

/-- The regular values inside. -/
theorem EverywhereIn.of_mem {p : Json → Prop} {items : List Json} (h : EverywhereIn p items) :
    ∀ v ∈ items, v.Everywhere p := by
  induction items with
  | nil => exact fun _ hmem => absurd hmem List.not_mem_nil
  | cons item items ih => exact List.forall_mem_cons.2 ⟨h.1, ih h.2⟩

theorem EverywhereUnder.of_mem {p : Json → Prop} {fields : List (String × Json)}
    (h : EverywhereUnder p fields) :
    ∀ field ∈ fields, field.2.Everywhere p := by
  induction fields with
  | nil => exact fun _ hmem => absurd hmem List.not_mem_nil
  | cons field fields ih => exact List.forall_mem_cons.2 ⟨h.1, ih h.2⟩

theorem value_bracket (depth : Nat) (rest : Bytes) : Reader.value (depth + 1) (0x5b :: rest) =
    (Reader.items (Reader.value depth) (rest.length + 1) [] rest).map fun (vs, rest) =>
      (.array vs, rest) := rfl

theorem value_brace (depth : Nat) (rest : Bytes) : Reader.value (depth + 1) (0x7b :: rest) =
    (Reader.members (Reader.value depth) (rest.length + 1) true [] rest).map fun (fs, rest) =>
      (.object fs, rest) := rfl

theorem value_quote (depth : Nat) (unread : Bytes) :
    Reader.value depth (0x22 :: unread) =
      (quoted unread).map fun read => (.string read.1, read.2) := by
  unfold Reader.value
  rfl

/-- Where no bracket may be opened any more, one is refused. -/
theorem reads_refused {α : Type} (height beyond : Nat) (v : α) (rest : Bytes) :
    Reads 0 (height + 1) (.error ⟨.recursionLimit, beyond⟩) v rest := by
  rw [Reads, if_neg (Nat.not_succ_le_zero height)]
  exact ⟨beyond, rfl⟩

theorem ofChars_array (items : List Json) (rest : Bytes) :
    ofChars (array items).print ++ rest = 0x5b :: (ofChars (printItems items) ++ 0x5d :: rest) := by
  rw [print, List.cons_append, ofChars_cons_of_ascii (by decide), ofChars_append, List.cons_append,
    List.append_assoc]
  rfl

theorem ofChars_object (fields : List (String × Json)) (rest : Bytes) :
    ofChars (object fields).print ++ rest =
      0x7b :: (ofChars (printFields fields) ++ 0x7d :: rest) := by
  rw [print, List.cons_append, ofChars_cons_of_ascii (by decide), ofChars_append, List.cons_append,
    List.append_assoc]
  rfl

theorem readsText_number (depth : Nat) {n : Json.Number} (hregular : IsRegular (.number n)) :
    ReadsText (Reader.value depth) depth (.number n) := by
  intro rest hrest
  cases n with
  | int i =>
      rw [print, Number.render, value_int depth hregular.1 hregular.2 hrest]
      exact reads_ok _
  | double d =>
      rw [print, Number.render, value_render_reread depth hregular hrest]
      exact reads_ok _

theorem readsText_string (depth : Nat) (s : String) :
    ReadsText (Reader.value depth) depth (.string s) := by
  intro rest _
  obtain ⟨tail, htail, hquoted⟩ := quoted_printText s rest
  rw [print, htail, value_quote, hquoted]
  exact reads_ok _

theorem readsText_bool (depth : Nat) (b : Bool) :
    ReadsText (Reader.value depth) depth (.bool b) := by
  intro rest _
  unfold Reader.value
  cases b <;> exact reads_ok _

theorem readsText_null (depth : Nat) : ReadsText (Reader.value depth) depth .null := by
  intro rest _
  unfold Reader.value
  exact reads_ok _

/-- **The text of a value is read as the value, with its doubles reread, or refused for its
nesting.** -/
theorem readsText_value (depth : Nat) {v : Json} (hregular : v.Everywhere IsRegular) :
    ReadsText (Reader.value depth) depth v := by
  -- The reader recurses on the brackets that may still be opened, and so does the proof, which is
  -- not on the value.
  induction depth generalizing v with
  | zero =>
      cases v with
      | null => exact readsText_null 0
      | bool b => exact readsText_bool 0 b
      | number n => exact readsText_number 0 hregular
      | string s => exact readsText_string 0 s
      | array items =>
          intro rest _
          rw [ofChars_array]
          exact reads_refused ..
      | object fields =>
          intro rest _
          rw [ofChars_object]
          exact reads_refused ..
  | succ depth ih =>
      cases v with
      | null => exact readsText_null _
      | bool b => exact readsText_bool _ b
      | number n => exact readsText_number _ hregular
      | string s => exact readsText_string _ s
      | array items =>
          intro rest _
          have hlength := length_printItems_le hregular.2
          rw [ofChars_array, value_bracket]
          refine (items_printItems (fun v hmem => ih (hregular.2.of_mem v hmem))
            hregular.2.of_mem ?_
            rest).map array
          rw [List.length_append]
          omega
      | object fields =>
          intro rest _
          have hlength := length_printFields_le fields
          rw [ofChars_object, value_brace]
          refine (members_printFields (fun field hmem => ih (hregular.2.of_mem field hmem))
            hregular.1 ?_ rest).map
            object
          rw [List.length_append]
          omega

/-! ### Whole texts -/

theorem isNull_reread (v : Json) : v.reread.isNull = v.isNull := by
  cases v with
  | number n => cases n <;> rfl
  | _ => rfl

/-- A text is read as a document if it does not nest too deeply. -/
theorem parse_print {v : Json} (hregular : v.Everywhere IsRegular) (hheight : v.height ≤ maxDepth) :
    parse (ofChars v.print) = .ok v.reread := by
  have hread := readsText_value maxDepth hregular [] (by rintro b ⟨⟩)
  rw [Reads, if_pos hheight, List.append_nil] at hread
  rw [parse, document, hread]
  rfl

/-- A text that nests too deeply is refused. -/
theorem parse_print_of_lt {v : Json} (hregular : v.Everywhere IsRegular)
    (hheight : maxDepth < v.height) :
    ∃ e, parse (ofChars v.print) = .error e ∧ e.fault = .recursionLimit := by
  have hread := readsText_value maxDepth hregular [] (by rintro b ⟨⟩)
  rw [Reads, if_neg (Nat.not_le.2 hheight), List.append_nil] at hread
  obtain ⟨beyond, hread⟩ := hread
  rw [parse, document, hread]
  exact ⟨_, rfl, rfl⟩

end Json

namespace Codec

open Json

theorem writeJson_of_no_view {hints : Hints} (h : hints.view = none) (v : Json) :
    writeJson v hints = Bytes.ofChars v.print := by
  rw [writeJson, h]
  exact Bytes.ofText_ofList _

/-- A written value is not blank. -/
theorem not_blank_print {v : Json} (hregular : v.Everywhere IsRegular) :
    ¬ (Bytes.ofChars v.print).all Ascii.isBlank = true := by
  obtain ⟨b, tail, htext, -, hblank, -⟩ := exists_text_eq_cons hregular
  rw [htext, List.all_cons, hblank]
  exact Bool.false_ne_true

/-- A written value is read as the value with its doubles reread, and null as nothing. -/
theorem readJson_writeJson {hints : Hints} (hview : hints.view = none) {v : Json}
    (hregular : v.Everywhere IsRegular) (hheight : v.height ≤ Reader.maxDepth) :
    readJson (writeJson v hints) = .ok (if v.isNull then none else some v.reread) := by
  rw [writeJson_of_no_view hview, readJson, if_neg (not_blank_print hregular),
    parse_print hregular hheight, ← isNull_reread]

/-- A written value that nests too deeply is refused. -/
theorem readJson_writeJson_of_lt {hints : Hints} (hview : hints.view = none) {v : Json}
    (hregular : v.Everywhere IsRegular) (hheight : Reader.maxDepth < v.height) :
    ∃ e, readJson (writeJson v hints) = .error (.json (.malformed e))
      ∧ e.fault = .recursionLimit := by
  obtain ⟨e, hparse, hfault⟩ := parse_print_of_lt hregular hheight
  rw [writeJson_of_no_view hview, readJson, if_neg (not_blank_print hregular), hparse]
  exact ⟨e, rfl, hfault⟩

end Codec

end ApiClient
