import ApiClient.Proofs.ExpansionDecoding
import ApiClient.Proofs.Utf8Text

/-!
# ApiClient.Proofs.TemplateVariables

What the values of variables can do to an expansion.

A value becomes plain characters: letters, digits, four marks and the percent sign. So all the other
characters of an expansion are those of the template's literals (`Template.delimiters`), whatever
the values are. Where a literal between two expressions has one of these characters, the value in
front of it ends at the same place in two expansions that are the same text. Values are encoded
without loss, so such expansions have the same values, by induction along the template.

Variables are found by their position or by their name. For names that differ from each other both
ways find the same values, if the names are bound in the order of the expressions.
-/

namespace ApiClient

namespace Template

/-! ### Expressions and literals -/

/-- The names of the variables in the order of their expressions, up to a brace without its
partner. -/
def names : Template → List String
  | done _ => []
  | broken _ => []
  | hole _ expression rest => String.ofList (variableName expression) :: rest.names

/-- A character that an address gives no meaning to, or the percent sign. -/
def isPlain (c : Char) : Bool :=
  c.isAlphanum || c == '-' || c == '.' || c == '_' || c == '~' || c == '%'

/-- The characters of what the literals become that are not plain. -/
def delimiters : Template → List Char
  | done literal => (encodeLiteral literal).filter (!isPlain ·)
  | broken _ => []
  | hole literal _ rest => (encodeLiteral literal).filter (!isPlain ·) ++ rest.delimiters

/-- A literal keeps the character as it is, and it is not plain. -/
def Separates (c : Char) : Prop := encodeLiteral [c] = [c] ∧ isPlain c = false

instance (c : Char) : Decidable (Separates c) := inferInstanceAs (Decidable (_ ∧ _))

/-- Between two expressions in a row stands a character that separates them. -/
def Separated : Template → Prop
  | done _ => True
  | broken _ => True
  | hole _ _ (hole literal expression rest) =>
    (∃ c ∈ literal, Separates c) ∧ (hole literal expression rest).Separated
  | hole _ _ _ => True

variable {bindings : Variables} {index : Nat} {result : List Char}

theorem expandFrom_hole {literal expression : List Char} {rest : Template}
    (h : expandFrom bindings index (hole literal expression rest) = .ok result) :
    ∃ value behind, valueOf? bindings index (String.ofList (variableName expression)) = some value
      ∧ expandFrom bindings (index + 1) rest = .ok behind
      ∧ result = encodeLiteral literal ++ (encodeValue value ++ behind) := by
  rw [expandFrom] at h
  split at h
  · cases h
  · split at h
    · cases h
    · next value hvalue =>
      obtain ⟨behind, hbehind, h⟩ := exists_of_bind_eq_ok h
      refine ⟨value, behind, hvalue, hbehind, ?_⟩
      rw [← Except.ok.inj h, List.append_assoc]

theorem isPlain_of_mem_encodeValue (value : String) :
    ∀ c ∈ encodeValue value, isPlain c = true := by
  refine Percent.forall_mem_encode (fun b => ?_) (by decide) (by decide) _
  exact forall_byte (p := fun b => isUnreserved b = true → isPlain (Percent.asciiChar b) = true)
    (by decide +kernel) b

/-! ### Delimiters -/

/-- The characters of an expansion that are not plain are those of the template. -/
theorem filter_expandFrom {t : Template} (h : expandFrom bindings index t = .ok result) :
    result.filter (!isPlain ·) = t.delimiters := by
  induction t generalizing index result with
  | done literal =>
      rw [← Except.ok.inj h]
      rfl
  | broken literal => cases h
  | hole literal expression rest ih =>
      obtain ⟨value, behind, -, hbehind, rfl⟩ := expandFrom_hole h
      have hvalue : (encodeValue value).filter (!isPlain ·) = [] := by
        rw [List.filter_eq_nil_iff]
        intro c hc
        simp [isPlain_of_mem_encodeValue value c hc]
      rw [List.filter_append, List.filter_append, hvalue, ih hbehind, List.nil_append]
      rfl

/-! ### Values -/

theorem encodeValue_inj {v w : String} (h : encodeValue v = encodeValue w) : v = w := by
  have hv := decode_encodeValue v []
  rw [h, decode_encodeValue w []] at hv
  have hbytes : Bytes.ofText w = Bytes.ofText v := List.append_cancel_right hv
  have htext := Utf8.decode_ofText w
  rw [hbytes, Utf8.decode_ofText v] at htext
  exact Except.ok.inj htext

theorem encodeLiteral_cons {c : Char} (hc : c ≠ '%') (rest : List Char) :
    encodeLiteral (c :: rest) = encodeLiteral [c] ++ encodeLiteral rest := by
  simp [encodeLiteral, hc]

theorem Separates.mem_encodeLiteral {c : Char} (h : Separates c) {literal : List Char}
    (hmem : c ∈ literal) : c ∈ encodeLiteral literal := by
  obtain ⟨hkept, hplain⟩ := h
  have hc : c ≠ '%' := by
    rintro rfl
    exact absurd hplain (by decide)
  induction literal with
  | nil => exact absurd hmem List.not_mem_nil
  | cons d rest ih =>
      rcases List.mem_cons.1 hmem with rfl | hrest
      · rw [encodeLiteral_cons hc, hkept]
        exact List.mem_cons_self
      · rw [encodeLiteral]
        exact List.mem_append_right _ (ih hrest)

/-- Two texts of plain characters in front of the same separator are the same, and so is what
follows. -/
theorem eq_of_append_separated {v w separator x y : List Char} (hv : ∀ c ∈ v, isPlain c = true)
    (hw : ∀ c ∈ w, isPlain c = true) (hseparator : ∃ c ∈ separator, isPlain c = false)
    (h : v ++ (separator ++ x) = w ++ (separator ++ y)) : v = w ∧ x = y := by
  have hstop : ∀ z, (separator ++ z).takeWhile isPlain = separator.takeWhile isPlain := by
    intro z
    rw [List.takeWhile_append, if_neg]
    intro hall
    obtain ⟨c, hc, hplain⟩ := hseparator
    rw [List.takeWhile_eq_self_iff.1 (List.takeWhile_sublist _ |>.eq_of_length hall) c hc] at hplain
    cases hplain
  have hfront := congrArg (List.takeWhile isPlain) h
  rw [List.takeWhile_append_of_pos hv, List.takeWhile_append_of_pos hw, hstop, hstop] at hfront
  obtain rfl := List.append_cancel_right hfront
  exact ⟨rfl, List.append_cancel_left (List.append_cancel_left h)⟩

/-- What follows an expression tells where its value ends. -/
theorem eq_of_expandFrom_rest {literal expression : List Char} {rest : Template} {b b' : Variables}
    (hsep : (hole literal expression rest).Separated) {x y : List Char}
    (hx : expandFrom b index rest = .ok x) (hy : expandFrom b' index rest = .ok y) {v w : String}
    (h : encodeValue v ++ x = encodeValue w ++ y) : v = w ∧ x = y := by
  cases rest with
  | done last =>
      obtain rfl : x = y := Except.ok.inj (hx.symm.trans hy)
      exact ⟨encodeValue_inj (List.append_cancel_right h), rfl⟩
  | broken last => cases hx
  | hole between expression' behind =>
      obtain ⟨⟨c, hc, hsep⟩, -⟩ := hsep
      obtain ⟨v', x', -, -, rfl⟩ := expandFrom_hole hx
      obtain ⟨w', y', -, -, rfl⟩ := expandFrom_hole hy
      obtain ⟨hvalue, hrest⟩ := eq_of_append_separated (isPlain_of_mem_encodeValue v)
        (isPlain_of_mem_encodeValue w) ⟨c, hsep.mem_encodeLiteral hc, hsep.2⟩ h
      exact ⟨encodeValue_inj hvalue, by rw [hrest]⟩

theorem Separated.rest {literal expression : List Char} {rest : Template}
    (h : (hole literal expression rest).Separated) : rest.Separated := by
  cases rest with
  | done last => trivial
  | broken last => trivial
  | hole between expression' behind => exact h.2

/-- Positional values that expand a separated template to the same text are the same. -/
theorem getElem?_eq_of_expandFrom {t : Template} (ht : t.Separated) {vs ws : List String}
    (hv : expandFrom (.positional vs) index t = .ok result)
    (hw : expandFrom (.positional ws) index t = .ok result) :
    ∀ i < t.names.length, vs[index + i]? = ws[index + i]? := by
  induction t generalizing index result with
  | done literal => simp [names]
  | broken literal => cases hv
  | hole literal expression rest ih =>
      obtain ⟨v, x, hvalue, hx, rfl⟩ := expandFrom_hole hv
      obtain ⟨w, y, hvalue', hy, hsame⟩ := expandFrom_hole hw
      obtain ⟨rfl, rfl⟩ := eq_of_expandFrom_rest ht hx hy (List.append_cancel_left hsame)
      intro i hi
      cases i with
      | zero => exact Eq.trans hvalue hvalue'.symm
      | succ i =>
          have hlt : i < rest.names.length := by
            rw [names, List.length_cons] at hi
            omega
          have hrest := ih ht.rest hx hy i hlt
          rwa [show index + 1 + i = index + (i + 1) by omega] at hrest

/-! ### Positions and names -/

/-- Values by name expand a template as positional values do, if every name has the value at its
position. -/
theorem expandFrom_named {t : Template} {values : List String} {entries : List (String × String)}
    (h : ∀ i name, t.names[i]? = some name → entries.lookup name = values[index + i]?) :
    expandFrom (.named entries) index t = expandFrom (.positional values) index t := by
  induction t generalizing index with
  | done literal => rfl
  | broken literal => rfl
  | hole literal expression rest ih =>
      have hfirst : entries.lookup (String.ofList (variableName expression)) = values[index]? :=
        h 0 _ rfl
      have hrest : expandFrom (.named entries) (index + 1) rest =
          expandFrom (.positional values) (index + 1) rest := by
        refine ih ?_
        intro i name hname
        rw [h (i + 1) name hname, show index + (i + 1) = index + 1 + i by omega]
      simp only [expandFrom, valueOf?, hfirst, hrest]

theorem lookup_zip {names values : List String} (h : names.Nodup) :
    ∀ (i : Nat) (name : String), names[i]? = some name →
      (names.zip values).lookup name = values[i]? := by
  induction names generalizing values with
  | nil => simp
  | cons first names ih =>
      obtain ⟨hfirst, hnames⟩ := List.nodup_cons.1 h
      intro i name hname
      cases values with
      | nil => simp
      | cons value values =>
          cases i with
          | zero =>
              obtain rfl : first = name := Option.some.inj hname
              simp
          | succ i =>
              have hmem : name ∈ names := List.mem_of_getElem? hname
              have hne : (name == first) = false := by
                rw [beq_eq_false_iff_ne]
                rintro rfl
                exact hfirst hmem
              simpa [List.lookup_cons, hne] using ih hnames i name hname

end Template

namespace Address

open Template (isPlain)

/-- **Values cannot change the structure of an address, and are not confused.** Two expansions of a
template have the same characters that are not plain, whatever the values are. If between any two
expressions in a row stands a character that separates them, positional values, one for each
expression, are the same if they expand to the same text. -/
theorem values_keep_structure (template : String) :
    (∀ (a b : Variables) (s t : String), expand template a = .ok s → expand template b = .ok t →
      s.toList.filter (!isPlain ·) = t.toList.filter (!isPlain ·))
    ∧ ((Template.read template).Separated → ∀ (vs ws : List String) (target : String),
      vs.length = (Template.read template).names.length →
      ws.length = (Template.read template).names.length →
      expand template (.positional vs) = .ok target → expand template (.positional ws) =
        .ok target →
      vs = ws) := by
  constructor
  · intro a b s t hs ht
    obtain ⟨x, hx, rfl⟩ := expand_eq_ok_iff.1 hs
    obtain ⟨y, hy, rfl⟩ := expand_eq_ok_iff.1 ht
    rw [String.toList_ofList, String.toList_ofList, Template.filter_expandFrom hx,
      Template.filter_expandFrom hy]
  · intro hseparated vs ws target hvs hws hv hw
    obtain ⟨x, hx, rfl⟩ := expand_eq_ok_iff.1 hv
    obtain ⟨y, hy, hsame⟩ := expand_eq_ok_iff.1 hw
    obtain rfl : y = x := String.ofList_injective hsame
    have hvalues := Template.getElem?_eq_of_expandFrom hseparated hx hy
    refine List.ext_getElem? ?_
    intro i
    by_cases hi : i < (Template.read template).names.length
    · simpa using hvalues i hi
    · rw [List.getElem?_eq_none (by omega), List.getElem?_eq_none (by omega)]

/-- A path and a query from two values, which would end the path and go on with the query. -/
theorem query_kept_from_values :
    expand "/\x7bx\x7d?q=\x7by\x7d" (.positional ["a/b", "1&r"]) = .ok "/a%2Fb?q=1%26r"
      ∧ expand "/\x7bx\x7d?q=\x7by\x7d" (.positional ["..", "#?ä"]) = .ok "/..?q=%23%3F%C3%A4"
      ∧ "/a%2Fb?q=1%26r".toList.filter (!isPlain ·) =
        "/..?q=%23%3F%C3%A4".toList.filter (!isPlain ·)
      ∧ (Template.read "/\x7bx\x7d?q=\x7by\x7d").Separated
      ∧ ¬ expand "/\x7bx\x7d?q=\x7by\x7d" (.positional ["a/b?q=1", "r"]) =
        .ok "/a%2Fb?q=1%26r" := by
  obtain ⟨hdelimiters, hvalues⟩ := values_keep_structure "/\x7bx\x7d?q=\x7by\x7d"
  have hfirst : expand "/\x7bx\x7d?q=\x7by\x7d" (.positional ["a/b", "1&r"]) =
      .ok "/a%2Fb?q=1%26r" :=
    eq_ok_of_toOption_eq_some (by decide +kernel)
  have hsecond : expand "/\x7bx\x7d?q=\x7by\x7d" (.positional ["..", "#?ä"]) =
      .ok "/..?q=%23%3F%C3%A4" := eq_ok_of_toOption_eq_some (by decide +kernel)
  have hseparated : (Template.read "/\x7bx\x7d?q=\x7by\x7d").Separated :=
    ⟨⟨'?', by decide, by decide +kernel⟩, trivial⟩
  refine ⟨hfirst, hsecond, hdelimiters _ _ _ _ hfirst hsecond, hseparated, ?_⟩
  intro h
  exact absurd (hvalues hseparated _ _ _ (by decide) (by decide) hfirst h) (by decide)

/-- **Positional and named variables agree.** If the names of a template's variables differ from
each other, it expands with values by position to the same result, or fails for the same reason, as
with the names bound to the values in their order. -/
theorem positional_agrees_with_named (template : String) (values : List String)
    (h : (Template.read template).names.Nodup) :
    expand template (.positional values) =
      expand template (.named ((Template.read template).names.zip values)) := by
  have hlookup : ∀ (i : Nat) (name : String), (Template.read template).names[i]? = some name →
      ((Template.read template).names.zip values).lookup name = values[0 + i]? := by
    intro i name hname
    rw [Template.lookup_zip h i name hname, Nat.zero_add]
  rw [expand, expand, Template.expand, Template.expand, Template.expandFrom_named hlookup]

/-- Too few values, in front of a brace without its partner. -/
theorem too_few_values_agree :
    (Template.read "/\x7b a \x7d/\x7bb:\\d+\x7d/\x7d").names.Nodup
      ∧ expand "/\x7b a \x7d/\x7bb:\\d+\x7d/\x7d" (.positional ["1"]) =
        expand "/\x7b a \x7d/\x7bb:\\d+\x7d/\x7d" (.named [("a", "1")])
      ∧ (expand "/\x7b a \x7d/\x7bb:\\d+\x7d/\x7d" (.named [("a", "1")])).toOption = none := by
  have hnames : (Template.read "/\x7b a \x7d/\x7bb:\\d+\x7d/\x7d").names = ["a", "b"] := by
    decide +kernel
  have hnodup : (Template.read "/\x7b a \x7d/\x7bb:\\d+\x7d/\x7d").names.Nodup := by
    rw [hnames]
    decide
  have hagree := positional_agrees_with_named "/\x7b a \x7d/\x7bb:\\d+\x7d/\x7d" ["1"] hnodup
  rw [hnames] at hagree
  exact ⟨hnodup, hagree, by decide +kernel⟩

end Address

end ApiClient
