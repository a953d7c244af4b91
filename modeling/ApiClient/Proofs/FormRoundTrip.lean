import ApiClient.Proofs.CodecRegistry
import ApiClient.Proofs.FormGrouping
import ApiClient.Proofs.Utf8Text

/-!
# ApiClient.Proofs.FormRoundTrip

Forms in the format of a query, written and read.

An encoded name or value has neither of the two separators in it (`not_separator_of_mem_encode`), so
a written form falls apart into its pairs at the ampersands and each pair at its first `=`
(`read_write`). The pairs of one field stand together, and no other field has its name; so reading
takes in field after field, and makes of each what is left of its value as text
(`groupPairs_append`).
-/

namespace ApiClient

/-! ### Cutting at a separator -/

namespace Bytes

variable {separator : UInt8} {piece : Bytes}

theorem splitOn_of_not_mem (h : separator ∉ piece) : splitOn separator piece = [piece] := by
  induction piece with
  | nil => rfl
  | cons b piece ih =>
      obtain ⟨hb, hpiece⟩ := not_or.1 (mt List.mem_cons.2 h)
      simp [splitOn, ih hpiece, Ne.symm hb]

theorem splitOn_append_cons (h : separator ∉ piece) (rest : Bytes) :
    splitOn separator (piece ++ separator :: rest) = piece :: splitOn separator rest := by
  induction piece with
  | nil => simp [splitOn]
  | cons b piece ih =>
      obtain ⟨hb, hpiece⟩ := not_or.1 (mt List.mem_cons.2 h)
      simp [splitOn, ih hpiece, Ne.symm hb]

/-- Cutting undoes joining, if there is a piece and the separator is in none of them. -/
theorem splitOn_intercalate {pieces : List Bytes} (hne : pieces ≠ [])
    (h : ∀ piece ∈ pieces, separator ∉ piece) :
    splitOn separator (List.intercalate [separator] pieces) = pieces := by
  induction pieces with
  | nil => exact absurd rfl hne
  | cons piece pieces ih =>
      obtain ⟨hpiece, hrest⟩ := List.forall_mem_cons.1 h
      cases pieces with
      | nil => simpa using splitOn_of_not_mem hpiece
      | cons next pieces =>
          rw [List.intercalate_cons_cons, List.append_assoc, List.singleton_append,
            splitOn_append_cons hpiece, ih (List.cons_ne_nil _ _) hrest]

end Bytes

/-! ### Pairs -/

namespace UrlEncoded

/-- The byte that a plus sign stands for is a space. -/
def unplus (b : UInt8) : UInt8 := if b == 0x2b then 0x20 else b

/-- A written byte without its plus sign is the byte itself or its triplet. -/
theorem map_unplus_encodeByte (b : UInt8) : (encodeByte b).map unplus =
    if keeps b || b == 0x20 then [b] else (Percent.triplet b).map Ascii.byte :=
  forall_byte (p := fun b => (encodeByte b).map unplus =
    if keeps b || b == 0x20 then [b] else (Percent.triplet b).map Ascii.byte) (by decide +kernel) b

theorem ne_percent_of_keeps {b : UInt8} (h : (keeps b || b == 0x20) = true) : b ≠ 0x25 := by
  rintro rfl
  exact absurd h (by decide)

theorem not_separator_of_mem_encodeByte (b : UInt8) : 0x26 ∉ encodeByte b ∧ 0x3d ∉ encodeByte b :=
  forall_byte (p := fun b => 0x26 ∉ encodeByte b ∧ 0x3d ∉ encodeByte b) (by decide +kernel) b

theorem not_separator_of_mem_encode (s : String) : 0x26 ∉ encode s ∧ 0x3d ∉ encode s := by
  constructor
  · intro hmem
    obtain ⟨b, -, hb⟩ := List.mem_flatMap.1 hmem
    exact (not_separator_of_mem_encodeByte b).1 hb
  · intro hmem
    obtain ⟨b, -, hb⟩ := List.mem_flatMap.1 hmem
    exact (not_separator_of_mem_encodeByte b).2 hb

theorem decode_flatMap_encodeByte (bytes : Bytes) :
    Percent.decode ((bytes.flatMap encodeByte).map unplus) = bytes := by
  induction bytes with
  | nil => rfl
  | cons b bytes ih =>
      rw [List.flatMap_cons, List.map_append, map_unplus_encodeByte]
      split
      · next h => rw [List.singleton_append, Percent.decode_cons_of_ne (ne_percent_of_keeps h), ih]
      · rw [Percent.decode_triplet, ih]

theorem decode_encode (s : String) : decode (encode s) = s := by
  show Utf8.decodeLossy (Percent.decode ((encode s).map unplus)) = s
  rw [encode, decode_flatMap_encodeByte, Utf8.decodeLossy_ofText]

theorem decodePair_encodePair (pair : String × String) : decodePair (encodePair pair) = pair := by
  have hcut : Bytes.splitBefore (· == 0x3d) (encodePair pair) =
      (encode pair.1, 0x3d :: encode pair.2) := by
    refine span_append (fun b hmem => ?_) (by simp)
    have hne : b ≠ 0x3d := by
      rintro rfl
      exact (not_separator_of_mem_encode pair.1).2 hmem
    simpa using hne
  rw [decodePair, hcut]
  simp [decode_encode]

theorem not_ampersand_of_mem_encodePair (pair : String × String) : 0x26 ∉ encodePair pair := by
  rw [encodePair, List.mem_append, List.mem_cons]
  rintro (hname | hequals | hvalue)
  · exact (not_separator_of_mem_encode pair.1).1 hname
  · exact absurd hequals (by decide)
  · exact (not_separator_of_mem_encode pair.2).1 hvalue

/-- **Reading undoes writing**, for every list of pairs. -/
theorem read_write (pairs : List (String × String)) : read (write pairs) = pairs := by
  rcases eq_or_ne pairs [] with rfl | hne
  · rfl
  · have hcut : Bytes.splitOn 0x26 (write pairs) = pairs.map encodePair := by
      refine Bytes.splitOn_intercalate (mt List.map_eq_nil_iff.1 hne) ?_
      intro piece hmem
      obtain ⟨pair, -, rfl⟩ := List.mem_map.1 hmem
      exact not_ampersand_of_mem_encodePair pair
    have hkept : (pairs.map encodePair).filter (!·.isEmpty) = pairs.map encodePair := by
      refine List.filter_eq_self.2 fun piece hmem => ?_
      obtain ⟨pair, -, rfl⟩ := List.mem_map.1 hmem
      simp [encodePair]
    rw [read, hcut, hkept, List.map_map]
    exact (List.map_congr_left fun pair _ => decodePair_encodePair pair).trans (List.map_id _)

end UrlEncoded

/-! ### Fields -/

namespace Json

/-- A scalar as text. -/
def spelled : Json → Json
  | .number n => .string n.render
  | .bool b => .string (toString b)
  | value => value

/-- What is left of a value in a form: nothing of null and of an empty list, of a list of one its
item. -/
def settled : Json → Option Json
  | .null => none
  | .array [] => none
  | .array [item] => some item.spelled
  | .array items => some (.array (items.map spelled))
  | value => some value.spelled

/-- What is left of an object in a form. -/
def settledFields (fields : Fields) : Fields :=
  fields.filterMap fun (name, value) => value.settled.map (name, ·)

end Json

namespace Codec

open Json

variable {fields : Fields} {pairs front : List (String × String)}

theorem spelled_of_scalarText {value : Json} {text : String} (h : scalarText value = some text) :
    value.spelled = .string text := by
  cases value with
  | string s => obtain rfl := Option.some.inj h; rfl
  | number n => obtain rfl := Option.some.inj h; rfl
  | bool b => obtain rfl := Option.some.inj h; rfl
  | null => nomatch h
  | array items => nomatch h
  | object fields => nomatch h

theorem map_spelled_of_scalarTexts {items : List Json} {texts : List String}
    (h : items.mapM scalarText = some texts) : items.map spelled = texts.map .string := by
  induction items generalizing texts with
  | nil => obtain rfl := Option.some.inj h; rfl
  | cons item items ih =>
      rw [List.mapM_cons] at h
      obtain ⟨text, htext, h⟩ := Option.bind_eq_some_iff.1 h
      obtain ⟨rest, hrest, h⟩ := Option.bind_eq_some_iff.1 h
      obtain rfl := Option.some.inj h
      rw [List.map_cons, spelled_of_scalarText htext, ih hrest, List.map_cons]

/-- What is left of a value is what its texts are gathered into. -/
theorem settled_of_fieldTexts {value : Json} {texts : List String}
    (h : fieldTexts value = some texts) :
    value.settled = held texts := by
  have hscalar {value : Json} (h : (scalarText value).map ([·]) = some texts) :
      some value.spelled = held texts := by
    obtain ⟨text, htext, rfl⟩ := Option.map_eq_some_iff.1 h
    rw [spelled_of_scalarText htext]
    rfl
  cases value with
  | null => obtain rfl := Option.some.inj h; rfl
  | string s => exact hscalar h
  | number n => exact hscalar h
  | bool b => exact hscalar h
  | object fields => exact hscalar h
  | array items =>
      have hitems := map_spelled_of_scalarTexts h
      match texts with
      | [] =>
          obtain rfl := List.map_eq_nil_iff.1 hitems
          rfl
      | [text] =>
          obtain ⟨item, rfl, hitem⟩ := List.map_eq_singleton_iff.1 hitems
          exact congrArg some hitem
      | text :: next :: texts =>
          obtain ⟨item, _, rfl, -, hrest⟩ := List.map_eq_cons_iff.1 hitems
          obtain ⟨second, items, rfl, -, -⟩ := List.map_eq_cons_iff.1 hrest
          exact congrArg (some ∘ Json.array) hitems

theorem pairsOf_cons {name : String} {value : Json}
    (h : pairsOf ((name, value) :: fields) = some pairs) :
    ∃ texts rest, fieldTexts value = some texts ∧ pairsOf fields = some rest
      ∧ pairs = texts.map (name, ·) ++ rest := by
  obtain ⟨texts, htexts, h⟩ := Option.bind_eq_some_iff.1 h
  obtain ⟨rest, hrest, h⟩ := Option.bind_eq_some_iff.1 h
  exact ⟨texts, rest, htexts, hrest, (Option.some.inj h).symm⟩

/-- A new name takes in all its texts at the end. -/
theorem groupPairs_append_map {name : String} (hnew : name ∉ front.map (·.1))
    (texts : List String) :
    groupPairs (front ++ texts.map (name, ·)) =
      groupPairs front ++ ((held texts).map (name, ·)).toList := by
  have hfields : name ∉ (groupPairs front).map (·.1) := by
    rwa [names_groupPairs, List.mem_eraseDups]
  induction texts using List.reverseRecOn with
  | nil => simp [held]
  | append_singleton texts text ih =>
      rw [List.map_append, ← List.append_assoc, List.map_singleton, groupPairs_concat, ih,
        Entries.update_append_of_not_mem hfields, held_concat]
      cases held texts with
      | none => rfl
      | some value => simp [Entries.update]

/-- Fields with new names are taken in one after the other. -/
theorem groupPairs_append (hpairs : pairsOf fields = some pairs) (hnames : (fields.map (·.1)).Nodup)
    (hnew : ∀ name ∈ fields.map (·.1), name ∉ front.map (·.1)) :
    groupPairs (front ++ pairs) = groupPairs front ++ settledFields fields := by
  induction fields generalizing front pairs with
  | nil =>
      obtain rfl := Option.some.inj hpairs
      simp [settledFields]
  | cons field fields ih =>
      obtain ⟨name, value⟩ := field
      obtain ⟨texts, rest, htexts, hrest, rfl⟩ := pairsOf_cons hpairs
      rw [List.map_cons, List.nodup_cons] at hnames
      rw [List.map_cons, List.forall_mem_cons] at hnew
      have hlater : ∀ other ∈ fields.map (·.1),
          other ∉ (front ++ texts.map (name, ·)).map (·.1) := by
        intro other hother hmem
        rw [List.map_append, List.mem_append, List.map_map] at hmem
        rcases hmem with hmem | hmem
        · exact hnew.2 other hother hmem
        · obtain ⟨_, -, rfl⟩ := List.mem_map.1 hmem
          exact hnames.1 hother
      rw [← List.append_assoc, ih hrest hnames.2 hlater, groupPairs_append_map hnew.1,
        List.append_assoc, ← settled_of_fieldTexts htexts]
      cases hsettled : value.settled with
      | none => simp [settledFields, hsettled]
      | some left => simp [settledFields, hsettled]

/-- What is left of an object is the same form. -/
theorem pairsOf_settledFields (h : pairsOf fields = some pairs) :
    pairsOf (settledFields fields) = some pairs := by
  induction fields generalizing pairs with
  | nil => exact h
  | cons field fields ih =>
      obtain ⟨name, value⟩ := field
      obtain ⟨texts, rest, htexts, hrest, rfl⟩ := pairsOf_cons h
      have hsettled := settled_of_fieldTexts htexts
      cases hheld : held texts with
      | none =>
          obtain rfl := eq_nil_of_held hheld
          simpa [settledFields, hsettled, held] using ih hrest
      | some left =>
          have hcons : settledFields ((name, value) :: fields) =
              (name, left) :: settledFields fields := by
            simp [settledFields, hsettled, hheld]
          rw [hcons, pairsOf, fieldTexts_of_held hheld, ih hrest]
          rfl

/-! ### The codec -/

theorem not_isFormData_of_isUrlEncoded {m : MediaType} (h : m.isUrlEncoded = true) :
    m.isFormData = false := by
  rw [MediaType.isUrlEncoded, beq_iff_eq] at h
  rw [MediaType.isFormData, h]
  decide

theorem write_object_of_pairsOf (boundary : Boundary) {declared : Option MediaType} (hints : Hints)
    (hm : (declared.getD MediaType.urlEncoded).isUrlEncoded = true)
    (h : pairsOf fields = some pairs) :
    (form boundary).write (.object fields) declared hints =
      .ok ⟨UrlEncoded.write pairs, declared.getD MediaType.urlEncoded⟩ := by
  show writeForm boundary (.object fields) declared = _
  rw [writeForm, formPairs, h]
  simp only [not_isFormData_of_isUrlEncoded hm]
  rfl

/-- **Forms are read as they were written.** An object is written as a form in the format of a query
if each of its fields is null, a scalar, or a list of scalars, and is refused for the nested field
otherwise. What was written is read as the object without nulls and empty lists, with numbers and
truth values as their texts and each list of one as its item, in the same order; and this object is
written as the same bytes. -/
theorem form_round_trip (boundary : Boundary) (declared : Option MediaType) (hints : Hints)
    (hm : (declared.getD MediaType.urlEncoded).isUrlEncoded = true) (fields : Fields)
    (hnames : (fields.map (·.1)).Nodup) :
    ((∃ encoded, (form boundary).write (.object fields) declared hints = .ok encoded) ↔
        ∀ field ∈ fields, field.2.IsFlat)
      ∧ ((¬ ∀ field ∈ fields, field.2.IsFlat) →
        (form boundary).write (.object fields) declared hints =
          .error (.unsupportedValue (declared.getD MediaType.urlEncoded).text .nestedField))
      ∧ ∀ encoded, (form boundary).write (.object fields) declared hints = .ok encoded →
        (form boundary).read encoded.bytes encoded.mediaType =
            .ok (some (.object (settledFields fields)))
          ∧ (form boundary).write (.object (settledFields fields)) declared hints =
            .ok encoded := by
  rw [← exists_pairsOf_iff]
  cases hpairs : pairsOf fields with
  | none =>
      have hrefused : (form boundary).write (.object fields) declared hints =
          .error (.unsupportedValue (declared.getD MediaType.urlEncoded).text .nestedField) := by
        show writeForm boundary (.object fields) declared = _
        rw [writeForm, formPairs, hpairs]
      rw [hrefused]
      refine ⟨by simp, fun _ => rfl, ?_⟩
      intro encoded hencoded
      cases hencoded
  | some pairs =>
      rw [write_object_of_pairsOf boundary hints hm hpairs]
      refine ⟨by simp, fun h => absurd ⟨pairs, rfl⟩ h, ?_⟩
      intro encoded hencoded
      obtain rfl := Except.ok.inj hencoded
      refine ⟨?_, write_object_of_pairsOf boundary hints hm (pairsOf_settledFields hpairs)⟩
      show Except.ok
        (some (Json.object (groupPairs (UrlEncoded.read (UrlEncoded.write pairs))))) = _
      rw [UrlEncoded.read_write]
      have hgroup : groupPairs ([] ++ pairs) = groupPairs [] ++ settledFields fields :=
        groupPairs_append hpairs hnames (by simp)
      exact congrArg (fun fields => Except.ok (some (Json.object fields))) hgroup

/-- The fields of a search, with a null, an empty list, and a list of one. -/
def searchFields : Fields :=
  [("q", .string "a&b c"), ("page", nat 2), ("tag", .array [.string "x", .bool true]),
    ("in", .array [nat 7]), ("since", .null), ("by", .array [])]

/-- What is left of them. -/
def foundFields : Fields :=
  [("q", .string "a&b c"), ("page", .string "2"), ("tag", .array [.string "x", .string "true"]),
    ("in", .string "7")]

theorem search_form_round_trip : ∃ encoded,
    (form plainBoundary).write (.object searchFields) none {} = .ok encoded
      ∧ (form plainBoundary).read encoded.bytes encoded.mediaType = .ok (some (.object foundFields))
      ∧ (form plainBoundary).write (.object foundFields) none {} = .ok encoded := by
  have hsettled : settledFields searchFields = foundFields := by
    have hpage : (Number.int 2).render = "2" := by decide
    have hin : (Number.int 7).render = "7" := by decide
    have htag : toString true = "true" := rfl
    simp [settledFields, searchFields, foundFields, settled, spelled, nat, hpage, hin, htag]
  have hflat : ∀ field ∈ searchFields, field.2.IsFlat := by
    simp [searchFields, IsFlat, IsScalar, nat]
  obtain ⟨hwrites, -, hreads⟩ :=
    form_round_trip plainBoundary none {} (by decide) searchFields (by decide)
  obtain ⟨encoded, hencoded⟩ := hwrites.2 hflat
  rw [hsettled] at hreads
  exact ⟨encoded, hencoded, hreads encoded hencoded⟩

end Codec

end ApiClient
