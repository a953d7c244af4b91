import ApiClient.Address.Resolve
import ApiClient.Proofs.Results

/-!
# ApiClient.Proofs.TemplateGrammar

The grammar of templates, stated apart from the reader.

A template is a row of slots with a literal behind the last of them. A slot is a literal and an
expression in braces, and it fits if its expression names a variable that has a value. What does not
split this way has a leftmost place that offends: every slot in front of it fits, and the text from
there on starts with one of the faults of `Offends`.

The two descriptions exclude each other because expansion is a function, and one of them always
holds (`expands_or_fails`). So it is enough to compute what expansion does with a template that is
described either way, and both equivalences follow.
-/

namespace ApiClient

namespace Template

/-! ### Slots -/

/-- A text without braces. -/
def BraceFree (s : List Char) : Prop := '\x7b' ∉ s ∧ '\x7d' ∉ s

instance (s : List Char) : Decidable (BraceFree s) := inferInstanceAs (Decidable (_ ∧ _))

/-- An expression of a template, with the literal in front of it and the value that it stands
for. -/
structure Slot where
  /-- The literal in front of the expression. -/
  literal : List Char
  /-- What stands between the braces. -/
  expression : List Char
  /-- The value for the expression. -/
  value : String

/-- A slot as the template has it. -/
def Slot.text (s : Slot) : List Char := s.literal ++ '\x7b' :: (s.expression ++ ['\x7d'])

/-- A slot with the value in place of the expression. -/
def Slot.filled (s : Slot) : List Char := encodeLiteral s.literal ++ encodeValue s.value

/-- The value that variables have for the expression at an index: the positional value at this
index, or the value of the expression's name. -/
inductive Provides : Variables → Nat → List Char → String → Prop where
  /-- The value at the index of the expression. -/
  | positional {values : List String} {index : Nat} {name : List Char} {value : String}
      (h : values[index]? = some value) : Provides (.positional values) index name value
  /-- The value of the name. -/
  | named {values : List (String × String)} {index : Nat} {name : List Char} {value : String}
      (h : values.lookup (String.ofList name) = some value) :
      Provides (.named values) index name value

/-- The slot is well-formed, and its value is the one that the variables have for it. -/
structure Slot.Fits (s : Slot) (bindings : Variables) (index : Nat) : Prop where
  /-- The literal has no brace. -/
  literal : BraceFree s.literal
  /-- The expression has no brace. -/
  expression : BraceFree s.expression
  /-- There is a name in front of the first colon. -/
  name : variableName s.expression ≠ []
  /-- The value is that of the variable. -/
  value : Provides bindings index (variableName s.expression) s.value

/-- The slots fit, the first of them standing at index `first`. -/
def Fit (bindings : Variables) (first : Nat) (slots : List Slot) : Prop :=
  ∀ (i : Nat) (s : Slot), slots[i]? = some s → s.Fits bindings (first + i)

theorem fit_nil (bindings : Variables) (first : Nat) : Fit bindings first [] := by
  intro i s h
  simp at h

theorem fit_cons {bindings : Variables} {first : Nat} {s : Slot} {slots : List Slot} :
    Fit bindings first (s :: slots) ↔ s.Fits bindings first ∧ Fit bindings (first + 1) slots := by
  constructor
  · intro h
    refine ⟨h 0 s rfl, ?_⟩
    intro i s' hs
    have hfits := h (i + 1) s' hs
    rwa [show first + (i + 1) = first + 1 + i by omega] at hfits
  · rintro ⟨hs, hslots⟩ i s' hs'
    cases i with
    | zero =>
        obtain rfl : s = s' := Option.some.inj hs'
        exact hs
    | succ i =>
        have hfits := hslots i s' hs'
        rwa [show first + 1 + i = first + (i + 1) by omega] at hfits

/-! ### The grammar -/

/-- The text splits into slots that fit and a last literal, and `result` is what they become. The
first slot stands at index `first`. -/
def Expands (bindings : Variables) (first : Nat) (text result : List Char) : Prop :=
  ∃ slots last, Fit bindings first slots ∧ BraceFree last
    ∧ text = slots.flatMap Slot.text ++ last
    ∧ result = slots.flatMap Slot.filled ++ encodeLiteral last

/-- The text, up to its first expression, offends with a fault. A brace without its partner comes
before everything else that is wrong with an expression, and the name before its value. -/
inductive Offends (bindings : Variables) (index : Nat) : List Char → TemplateFault → Prop where
  /-- A closing brace outside of an expression. -/
  | stray {literal rest : List Char} (hliteral : BraceFree literal) :
      Offends bindings index (literal ++ '\x7d' :: rest) .unbalancedBraces
  /-- An opening brace that nothing closes. -/
  | unclosed {literal rest : List Char} (hliteral : BraceFree literal) (hrest : BraceFree rest) :
      Offends bindings index (literal ++ '\x7b' :: rest) .unbalancedBraces
  /-- An opening brace inside an expression. -/
  | nested {literal expression rest : List Char} (hliteral : BraceFree literal)
      (hexpression : BraceFree expression) :
      Offends bindings index (literal ++ '\x7b' :: (expression ++ '\x7b' :: rest)) .unbalancedBraces
  /-- An expression without a name. -/
  | unnamed {literal expression rest : List Char} (hliteral : BraceFree literal)
      (hexpression : BraceFree expression) (hname : variableName expression = []) :
      Offends bindings index (literal ++ '\x7b' :: (expression ++ '\x7d' :: rest)) .emptyName
  /-- A name without a value. -/
  | missing {literal expression rest : List Char} (hliteral : BraceFree literal)
      (hexpression : BraceFree expression) (hname : variableName expression ≠ [])
      (hvalue : ∀ value, ¬ Provides bindings index (variableName expression) value) :
      Offends bindings index (literal ++ '\x7b' :: (expression ++ '\x7d' :: rest))
        (.missingValue (String.ofList (variableName expression)))

/-- Behind slots that fit, the text offends with a fault. -/
def Fails (bindings : Variables) (first : Nat) (text : List Char) (fault : TemplateFault) : Prop :=
  ∃ slots rest, Fit bindings first slots ∧ text = slots.flatMap Slot.text ++ rest
    ∧ Offends bindings (first + slots.length) rest fault

/-- A slot that fits in front of a text that expands. -/
theorem Expands.cons {bindings : Variables} {first : Nat} {s : Slot} {text result : List Char}
    (hs : s.Fits bindings first) (h : Expands bindings (first + 1) text result) :
    Expands bindings first (s.text ++ text) (s.filled ++ result) := by
  obtain ⟨slots, last, hslots, hlast, rfl, rfl⟩ := h
  exact ⟨s :: slots, last, fit_cons.2 ⟨hs, hslots⟩, hlast, by simp, by simp⟩

/-- A slot that fits in front of a text that fails. -/
theorem Fails.cons {bindings : Variables} {first : Nat} {s : Slot} {text : List Char}
    {fault : TemplateFault} (hs : s.Fits bindings first)
    (h : Fails bindings (first + 1) text fault) :
    Fails bindings first (s.text ++ text) fault := by
  obtain ⟨slots, rest, hslots, rfl, hfault⟩ := h
  refine ⟨s :: slots, rest, fit_cons.2 ⟨hs, hslots⟩, by simp, ?_⟩
  rwa [List.length_cons, show first + (slots.length + 1) = first + 1 + slots.length by omega]

/-! ### Every template is described -/

theorem braceFree_nil : BraceFree [] := ⟨List.not_mem_nil, List.not_mem_nil⟩

theorem braceFree_cons {c : Char} {s : List Char} :
    BraceFree (c :: s) ↔ (c ≠ '\x7b' ∧ c ≠ '\x7d') ∧ BraceFree s := by
  simp only [BraceFree, List.mem_cons, not_or, ne_eq, eq_comm (b := c)]
  constructor
  · rintro ⟨⟨hopen, hs⟩, hclose, hs'⟩
    exact ⟨⟨hopen, hclose⟩, hs, hs'⟩
  · rintro ⟨⟨hopen, hclose⟩, hs, hs'⟩
    exact ⟨⟨hopen, hs⟩, hclose, hs'⟩

/-- A text has no brace, or a first one. -/
theorem first_brace (s : List Char) :
    BraceFree s ∨ ∃ front rest, BraceFree front
      ∧ (s = front ++ '\x7b' :: rest ∨ s = front ++ '\x7d' :: rest) := by
  induction s with
  | nil => exact .inl braceFree_nil
  | cons c s ih =>
      by_cases hopen : c = '\x7b'
      · exact .inr ⟨[], s, braceFree_nil, .inl (by rw [hopen]; rfl)⟩
      by_cases hclose : c = '\x7d'
      · exact .inr ⟨[], s, braceFree_nil, .inr (by rw [hclose]; rfl)⟩
      have hcons : ∀ t, BraceFree t → BraceFree (c :: t) :=
        fun t ht => braceFree_cons.2 ⟨⟨hopen, hclose⟩, ht⟩
      rcases ih with h | ⟨front, rest, hfront, rfl | rfl⟩
      · exact .inl (hcons s h)
      · exact .inr ⟨c :: front, rest, hcons front hfront, .inl rfl⟩
      · exact .inr ⟨c :: front, rest, hcons front hfront, .inr rfl⟩

/-- Every text expands, or has a leftmost place that offends. -/
theorem expands_or_fails (bindings : Variables) (first : Nat) (text : List Char) :
    (∃ result, Expands bindings first text result) ∨ ∃ fault, Fails bindings first text fault := by
  have offend : ∀ {fault : TemplateFault}, Offends bindings first text fault →
      ∃ fault, Fails bindings first text fault :=
    fun h => ⟨_, [], text, fit_nil bindings first, rfl, h⟩
  rcases first_brace text with hfree | ⟨literal, behind, hliteral, rfl | rfl⟩
  · exact .inl ⟨_, [], text, fit_nil bindings first, hfree, rfl, rfl⟩
  · rcases first_brace behind with hfree | ⟨expression, rest, hexpression, rfl | rfl⟩
    · exact .inr (offend (.unclosed hliteral hfree))
    · exact .inr (offend (.nested hliteral hexpression))
    · by_cases hname : variableName expression = []
      · exact .inr (offend (.unnamed hliteral hexpression hname))
      by_cases hvalue : ∃ value, Provides bindings first (variableName expression) value
      · -- The slot fits, and what stands behind it decides.
        obtain ⟨value, hvalue⟩ := hvalue
        have hs : Slot.Fits ⟨literal, expression, value⟩ bindings first :=
          ⟨hliteral, hexpression, hname, hvalue⟩
        have htext : literal ++ '\x7b' :: (expression ++ '\x7d' :: rest) =
            Slot.text ⟨literal, expression, value⟩ ++ rest := by simp [Slot.text]
        rw [htext]
        rcases expands_or_fails bindings (first + 1) rest with ⟨result, h⟩ | ⟨fault, h⟩
        · exact .inl ⟨_, h.cons hs⟩
        · exact .inr ⟨_, h.cons hs⟩
      · exact .inr (offend (.missing hliteral hexpression hname (not_exists.1 hvalue)))
  · exact .inr (offend (.stray hliteral))
termination_by text.length
decreasing_by
  subst_vars
  simp only [List.length_append, List.length_cons]
  omega

/-! ### What the reader makes of it -/

/-- A template with a literal in front. -/
def prepend (front : List Char) : Template → Template
  | done literal => done (front ++ literal)
  | broken literal => broken (front ++ literal)
  | hole literal expression rest => hole (front ++ literal) expression rest

theorem push_prepend (c : Char) (front : List Char) (t : Template) :
    (t.prepend front).push c = t.prepend (c :: front) := by
  cases t with
  | done literal => rfl
  | broken literal => rfl
  | hole literal expression rest => rfl

/-- A literal is read up to the first brace. -/
theorem readFrom_literal {literal : List Char} (h : BraceFree literal) (rest : List Char) :
    readFrom none (literal ++ rest) = (readFrom none rest).prepend literal := by
  induction literal with
  | nil => cases hread : readFrom none rest <;> simp [hread, prepend]
  | cons c literal ih =>
      obtain ⟨⟨hopen, hclose⟩, hliteral⟩ := braceFree_cons.1 h
      rw [List.cons_append, readFrom, if_neg hopen, if_neg hclose, ih hliteral, push_prepend]

/-- An expression is read up to the first brace. -/
theorem readFrom_expression {expression : List Char} (h : BraceFree expression)
    (begun rest : List Char) :
    readFrom (some begun) (expression ++ rest) = readFrom (some (begun ++ expression)) rest := by
  induction expression generalizing begun with
  | nil => simp
  | cons c expression ih =>
      obtain ⟨⟨hopen, hclose⟩, hexpression⟩ := braceFree_cons.1 h
      rw [List.cons_append, readFrom, if_neg hopen, if_neg hclose, ih hexpression,
        List.append_assoc]
      rfl

/-- An opening brace begins an expression. -/
theorem readFrom_open {literal : List Char} (h : BraceFree literal) (rest : List Char) :
    readFrom none (literal ++ '\x7b' :: rest) = (readFrom (some []) rest).prepend literal := by
  rw [readFrom_literal h, readFrom, if_pos rfl]

/-- An expression that is closed is a hole. -/
theorem readFrom_hole {literal expression : List Char} (hliteral : BraceFree literal)
    (hexpression : BraceFree expression) (rest : List Char) :
    readFrom none (literal ++ '\x7b' :: (expression ++ '\x7d' :: rest)) =
      hole literal expression (readFrom none rest) := by
  rw [readFrom_open hliteral, readFrom_expression hexpression, readFrom, if_neg (by decide),
    if_pos rfl]
  simp [prepend]

theorem readFrom_done {literal : List Char} (h : BraceFree literal) :
    readFrom none literal = done literal := by
  have hread := readFrom_literal h []
  simpa [readFrom, prepend] using hread

/-! ### What expansion makes of it -/

theorem valueOf?_eq_some_iff {bindings : Variables} {index : Nat} {name : List Char}
    {value : String} :
    valueOf? bindings index (String.ofList name) = some value ↔
      Provides bindings index name value := by
  constructor
  · intro h
    cases bindings with
    | none => cases h
    | positional values => exact .positional h
    | named values => exact .named h
  · intro h
    cases h with
    | positional h => exact h
    | named h => exact h

/-- A slot that fits is filled, and expansion goes on behind it. -/
theorem expandFrom_slot {bindings : Variables} {index : Nat} {s : Slot} (h : s.Fits bindings index)
    (rest : List Char) :
    expandFrom bindings index (readFrom none (s.text ++ rest)) =
      (expandFrom bindings (index + 1) (readFrom none rest)).map (s.filled ++ ·) := by
  have htext : s.text ++ rest = s.literal ++ '\x7b' :: (s.expression ++ '\x7d' :: rest) := by
    simp [Slot.text]
  have hname : (variableName s.expression).isEmpty = false := by
    simpa using h.name
  rw [htext, readFrom_hole h.literal h.expression, expandFrom]
  simp only [hname, Bool.false_eq_true, if_false, valueOf?_eq_some_iff.2 h.value]
  cases expandFrom bindings (index + 1) (readFrom none rest) with
  | error fault => rfl
  | ok result => rfl

theorem expandFrom_slots {bindings : Variables} {slots : List Slot} (rest : List Char) :
    ∀ {first : Nat}, Fit bindings first slots →
      expandFrom bindings first (readFrom none (slots.flatMap Slot.text ++ rest)) =
        (expandFrom bindings (first + slots.length) (readFrom none rest)).map
          (slots.flatMap Slot.filled ++ ·) := by
  induction slots with
  | nil =>
      intro first _
      cases h : expandFrom bindings first (readFrom none rest) <;> simp [h, Except.map]
  | cons s slots ih =>
      intro first h
      obtain ⟨hs, hslots⟩ := fit_cons.1 h
      rw [List.flatMap_cons, List.append_assoc, expandFrom_slot hs, ih hslots, List.length_cons,
        show first + (slots.length + 1) = first + 1 + slots.length by omega]
      cases expandFrom bindings (first + 1 + slots.length) (readFrom none rest) with
      | error fault => rfl
      | ok result => simp [Except.map]

/-- A text that expands is expanded. -/
theorem Expands.expandFrom_eq {bindings : Variables} {first : Nat} {text result : List Char}
    (h : Expands bindings first text result) :
    expandFrom bindings first (readFrom none text) = .ok result := by
  obtain ⟨slots, last, hslots, hlast, rfl, rfl⟩ := h
  rw [expandFrom_slots last hslots, readFrom_done hlast]
  rfl

theorem Offends.expandFrom_eq {bindings : Variables} {index : Nat} {text : List Char}
    {fault : TemplateFault} (h : Offends bindings index text fault) :
    expandFrom bindings index (readFrom none text) = .error fault := by
  cases h with
  | stray hliteral =>
      rw [readFrom_literal hliteral, readFrom, if_neg (by decide), if_pos rfl]
      rfl
  | @unclosed literal rest hliteral hrest =>
      have hread := readFrom_expression hrest [] []
      rw [List.append_nil] at hread
      rw [readFrom_open hliteral, hread]
      rfl
  | nested hliteral hexpression =>
      rw [readFrom_open hliteral, readFrom_expression hexpression, readFrom, if_pos rfl]
      rfl
  | unnamed hliteral hexpression hname =>
      rw [readFrom_hole hliteral hexpression, expandFrom]
      simp [hname]
  | @missing literal expression rest hliteral hexpression hname hvalue =>
      have hempty : (variableName expression).isEmpty = false := by
        simpa using hname
      have hnone : valueOf? bindings index (String.ofList (variableName expression)) = none :=
        Option.eq_none_iff_forall_ne_some.2 fun value hsome =>
          hvalue value (valueOf?_eq_some_iff.1 hsome)
      rw [readFrom_hole hliteral hexpression, expandFrom]
      simp [hempty, hnone]

/-- A text that fails is refused with the fault of the leftmost place that offends. -/
theorem Fails.expandFrom_eq {bindings : Variables} {first : Nat} {text : List Char}
    {fault : TemplateFault} (h : Fails bindings first text fault) :
    expandFrom bindings first (readFrom none text) = .error fault := by
  obtain ⟨slots, rest, hslots, rfl, hfault⟩ := h
  rw [expandFrom_slots rest hslots, hfault.expandFrom_eq]
  rfl

theorem expandFrom_eq_ok_iff {bindings : Variables} {first : Nat} {text result : List Char} :
    expandFrom bindings first (readFrom none text) = .ok result ↔
      Expands bindings first text result := by
  refine ⟨fun hok => ?_, Expands.expandFrom_eq⟩
  rcases expands_or_fails bindings first text with ⟨result', h⟩ | ⟨fault, h⟩
  · have heq := h.expandFrom_eq
    rw [hok] at heq
    exact Except.ok.inj heq ▸ h
  · have heq := h.expandFrom_eq
    rw [hok] at heq
    cases heq

theorem expandFrom_eq_error_iff {bindings : Variables} {first : Nat} {text : List Char}
    {fault : TemplateFault} :
    expandFrom bindings first (readFrom none text) = .error fault ↔
      Fails bindings first text fault := by
  refine ⟨fun herror => ?_, Fails.expandFrom_eq⟩
  rcases expands_or_fails bindings first text with ⟨result, h⟩ | ⟨fault', h⟩
  · have heq := h.expandFrom_eq
    rw [herror] at heq
    cases heq
  · have heq := h.expandFrom_eq
    rw [herror] at heq
    exact Except.error.inj heq ▸ h

end Template

namespace Address

/-- **Expansion accepts exactly the grammar of templates.** It succeeds with what the slots and the
last literal become if the template splits into slots that fit and a literal without braces.
Otherwise it fails with the fault of the leftmost place that offends, every slot in front of which
fits. -/
theorem expand_accepts_grammar (template : String) (bindings : Variables) :
    (∀ result, expand template bindings = .ok result ↔
      Template.Expands bindings 0 template.toList result.toList)
    ∧ ∀ e, expand template bindings = .error e ↔
      ∃ fault, Template.Fails bindings 0 template.toList fault ∧ e = faultOf template fault := by
  constructor
  · intro result
    rw [← Template.expandFrom_eq_ok_iff, expand, mapError_eq_ok_iff, Template.expand, map_eq_ok_iff,
      Template.read]
    constructor
    · rintro ⟨chars, hchars, rfl⟩
      rwa [String.toList_ofList]
    · intro h
      exact ⟨result.toList, h, String.ofList_toList⟩
  · intro e
    rw [expand, mapError_eq_error_iff]
    simp only [Template.expand, map_eq_error_iff, Template.read, Template.expandFrom_eq_error_iff,
      eq_comm (a := e)]

end Address

end ApiClient
