import ApiClient.Codec.Registry
import ApiClient.Proofs.JsonRoundTrip
import ApiClient.Proofs.MultipartForm

/-!
# ApiClient.Proofs.CodecRegistry

What the default codecs write, and what reading it gives back.

The three codecs ask for different things: the codec of texts for a text without a form, the codec
of forms for an object as a form, and the codec of JSON for a media type that no form has
(`isJson_of_isForm`). So which of them writes is one case distinction (`writeBody_defaultsWriting`),
and it holds whatever the codecs of texts and of forms would write. Success, media type and
rereading are then read off the codec that wrote (`writeBody_outcome`).
-/

namespace ApiClient

/-! ### Media types -/

namespace MediaType

theorem essence_toList (m : MediaType) : m.essence.toList =
    m.topLevel.toList ++ '/' ::
      (m.subtype.toList ++ ((m.suffix.map ("+" ++ ·)).getD "").toList) := by
  rw [essence, String.toList_append, String.toList_append, String.toList_append, List.append_assoc,
    List.append_assoc]
  rfl

/-- No form is a JSON format: the essences of forms have no suffix and do not end in `json`. -/
theorem isJson_of_isForm {m : MediaType} (h : m.isForm = true) : m.isJson = false := by
  have hends : '+' ∉ m.essence.toList ∧ m.essence.toList.getLast? ≠ some 'n' := by
    rw [isForm, Bool.or_eq_true, isUrlEncoded, isFormData, beq_iff_eq, beq_iff_eq] at h
    rcases h with h | h
    · rw [h]
      decide
    · rw [h]
      decide
  rw [essence_toList] at hends
  rw [isJson, Bool.or_eq_false_iff, beq_eq_false_iff_ne, beq_eq_false_iff_ne]
  cases hsuffix : m.suffix with
  | some s =>
      refine absurd ?_ hends.1
      rw [hsuffix, Option.map_some, Option.getD_some, String.toList_append]
      simp
  | none =>
      refine ⟨fun hsubtype => hends.2 ?_, nofun⟩
      rw [hsuffix, hsubtype, Option.map_none, Option.getD_none]
      simp [List.getLast?_append]

theorem isForm_of_isJson {m : MediaType} (h : m.isJson = true) : m.isForm = false :=
  Bool.eq_false_iff.2 fun hform => Bool.false_ne_true ((isJson_of_isForm hform).symm.trans h)

end MediaType

/-! ### Flat fields -/

namespace Json

/-- The value is a text, a number or a truth value. -/
def IsScalar : Json → Prop
  | .string _ => True
  | .number _ => True
  | .bool _ => True
  | _ => False

/-- The value is null, a scalar, or a list of scalars. -/
def IsFlat : Json → Prop
  | .null => True
  | .array items => ∀ item ∈ items, item.IsScalar
  | value => value.IsScalar

end Json

namespace Codec

open Json

theorem exists_scalarText_iff (v : Json) : (∃ text, scalarText v = some text) ↔ v.IsScalar := by
  cases v with
  | string s => exact ⟨fun _ => trivial, fun _ => ⟨s, rfl⟩⟩
  | number n => exact ⟨fun _ => trivial, fun _ => ⟨n.render, rfl⟩⟩
  | bool b => exact ⟨fun _ => trivial, fun _ => ⟨toString b, rfl⟩⟩
  | null => exact ⟨fun ⟨_, h⟩ => (nomatch h), False.elim⟩
  | array items => exact ⟨fun ⟨_, h⟩ => (nomatch h), False.elim⟩
  | object fields => exact ⟨fun ⟨_, h⟩ => (nomatch h), False.elim⟩

theorem exists_fieldTexts_iff (v : Json) : (∃ texts, fieldTexts v = some texts) ↔ v.IsFlat := by
  have hscalar {v : Json} (h : fieldTexts v = (scalarText v).map ([·]))
      (hflat : v.IsFlat = v.IsScalar) :
      (∃ texts, fieldTexts v = some texts) ↔ v.IsFlat := by
    rw [h, hflat, ← exists_scalarText_iff]
    cases scalarText v with
    | none => simp
    | some text => simp
  cases v with
  | null => exact ⟨fun _ => trivial, fun _ => ⟨[], rfl⟩⟩
  | array items =>
      rw [fieldTexts, exists_mapM_some_iff]
      exact forall₂_congr fun item _ => exists_scalarText_iff item
  | string s => exact hscalar rfl rfl
  | number n => exact hscalar rfl rfl
  | bool b => exact hscalar rfl rfl
  | object fields => exact hscalar rfl rfl

/-- An object is a form if its fields are flat. -/
theorem exists_pairsOf_iff (fields : Fields) :
    (∃ pairs, pairsOf fields = some pairs) ↔ ∀ field ∈ fields, field.2.IsFlat := by
  induction fields with
  | nil => exact ⟨fun _ _ hmem => absurd hmem List.not_mem_nil, fun _ => ⟨[], rfl⟩⟩
  | cons field fields ih =>
      rw [List.forall_mem_cons, ← ih, ← exists_fieldTexts_iff, pairsOf]
      constructor
      · rintro ⟨pairs, h⟩
        obtain ⟨texts, htexts, h⟩ := Option.bind_eq_some_iff.1 h
        obtain ⟨rest, hrest, -⟩ := Option.bind_eq_some_iff.1 h
        exact ⟨⟨texts, htexts⟩, rest, hrest⟩
      · rintro ⟨⟨texts, htexts⟩, rest, hrest⟩
        rw [htexts, hrest]
        exact ⟨_, rfl⟩

/-! ### Which codec writes -/

/-- How a codec writes a value. -/
abbrev Writer := Json → Option MediaType → Hints → Except CodecError EncodedBody

/-- The default codecs, with other writers in the codecs of texts and of forms. -/
def defaultsWriting (boundary : Boundary) (writeText writeForm : Writer) : List Codec :=
  [{ text with write := writeText }, { form boundary with write := writeForm }, json]

theorem defaults_eq (boundary : Boundary) :
    defaults boundary = defaultsWriting boundary text.write (form boundary).write := rfl

variable {boundary : Boundary} {value : Json} {declared : Option MediaType} {hints : Hints}

/-- The codec of texts writes texts that are no form, the codec of forms objects that are one, and
the codec of JSON what is left of JSON formats. -/
theorem writeBody_defaultsWriting (boundary : Boundary) (writeText writeForm : Writer)
    (value : Json) (declared : Option MediaType) (hints : Hints) :
    writeBody (defaultsWriting boundary writeText writeForm) value declared hints =
      if value.isString && !declared.any MediaType.isForm then writeText value declared hints
      else if value.isObject && declared.any MediaType.isForm then writeForm value declared hints
      else if declared.all MediaType.isJson then
        .ok ⟨writeJson value hints, declared.getD MediaType.json⟩
      else .error (.noWriter ((declared.map MediaType.text).getD "<unspecified>")) := by
  unfold writeBody defaultsWriting
  simp only [List.find?_cons, List.find?_nil]
  cases hstring : text.canWrite value declared with
  | true => exact (if_pos hstring).symm
  | false =>
      rw [if_neg (by rw [show (_ && _) = false from hstring]; exact Bool.false_ne_true)]
      cases hobject : (form boundary).canWrite value declared with
      | true => exact (if_pos hobject).symm
      | false =>
          rw [if_neg (by rw [show (_ && _) = false from hobject]; exact Bool.false_ne_true)]
          cases hjson : json.canWrite value declared with
          | true => exact (if_pos hjson).symm
          | false =>
              exact (if_neg
                (by rw [show declared.all _ = false from hjson]; exact Bool.false_ne_true)).symm

/-- What can be written: a text that is no form, an object of flat fields as a form, and anything
but a text where no media type or a JSON format is declared. -/
def IsWritable (value : Json) (declared : Option MediaType) : Prop :=
  (value.isString = true ∧ ∀ m ∈ declared, m.isForm = false)
    ∨ (∃ fields, value = .object fields ∧ (∀ field ∈ fields, field.2.IsFlat)
      ∧ ∃ m ∈ declared, m.isForm = true)
    ∨ (value.isString = false ∧ ∀ m ∈ declared, m.isJson = true)

/-- A form of texts is written in memory. -/
theorem exists_toBytes (boundary : Boundary) (pairs : List (String × String)) :
    ∃ parts, (multipartOf boundary pairs).toBytes = .ok (Mime.write boundary.bytes parts) := by
  have henclosed : (multipartOf boundary pairs).enclosed =
      .ok (pairs.map fun pair => ⟨(Part.text pair.2).fields pair.1, Bytes.ofText pair.2⟩) := by
    rw [Multipart.enclosed, multipartOf]
    simp only
    induction pairs with
    | nil => rfl
    | cons pair pairs ih =>
        rw [List.map_cons, List.mapM_cons, ih, Part.enclosed_of_bytes rfl]
        rfl
  rw [Multipart.toBytes_eq, henclosed]
  exact ⟨_, rfl⟩

/-- The encoded form tells the boundary that stands between its parts. -/
def TellsBoundary (boundary : Boundary) (encoded : EncodedBody) : Prop :=
  encoded.mediaType = { MediaType.formData with parameters := "; boundary=" ++ boundary.text }
    ∧ Mime.boundary? encoded.mediaType = some boundary.bytes
    ∧ ∃ parts, encoded.bytes = Mime.write boundary.bytes parts

/-- Writing an object as a form succeeds if its fields are flat. The media type is kept, unless the
form is one of parts. -/
theorem writeForm_object (boundary : Boundary) (fields : Fields) (m : MediaType) :
    (∃ encoded, writeForm boundary (.object fields) (some m) = .ok encoded
        ∧ if m.isFormData then TellsBoundary boundary encoded else encoded.mediaType = m)
      ∧ (∀ field ∈ fields, field.2.IsFlat)
    ∨ writeForm boundary (.object fields) (some m) = .error (.unsupportedValue m.text .nestedField)
      ∧ ¬ ∀ field ∈ fields, field.2.IsFlat := by
  rw [← exists_pairsOf_iff]
  cases hpairs : pairsOf fields with
  | none =>
      refine .inr ⟨?_, fun ⟨_, h⟩ => nomatch h⟩
      rw [writeForm, formPairs, hpairs]
      rfl
  | some pairs =>
      refine .inl ⟨?_, pairs, rfl⟩
      rw [writeForm, formPairs, hpairs]
      simp only [Option.getD_some]
      by_cases hparts : m.isFormData = true
      · obtain ⟨parts, hbytes⟩ := exists_toBytes boundary pairs
        simp only [if_pos hparts, hbytes]
        exact ⟨_, rfl, rfl, Multipart.boundary?_mediaType (multipartOf boundary pairs), parts, rfl⟩
      · simp only [if_neg hparts]
        exact ⟨_, rfl, rfl⟩

/-- Everything that writing with the default codecs can come to. -/
theorem writeBody_outcome (boundary : Boundary) (value : Json) (declared : Option MediaType)
    (hints : Hints) :
    (∃ s, value = .string s ∧ (∀ m ∈ declared, m.isForm = false)
        ∧ writeBody (defaults boundary) value declared hints =
          .ok ⟨Bytes.ofText s, declared.getD MediaType.plainText⟩)
      ∨ (∃ fields m, value = .object fields ∧ declared = some m ∧ m.isForm = true
        ∧ writeBody (defaults boundary) value declared hints =
          writeForm boundary (.object fields) (some m))
      ∨ (value.isString = false ∧ (∀ m ∈ declared, m.isJson = true)
        ∧ writeBody (defaults boundary) value declared hints =
          .ok ⟨writeJson value hints, declared.getD MediaType.json⟩)
      ∨ (¬ IsWritable value declared
        ∧ ∃ name,
          writeBody (defaults boundary) value declared hints = .error (.noWriter name)) := by
  rw [defaults_eq, writeBody_defaultsWriting]
  by_cases htext : (value.isString && !declared.any MediaType.isForm) = true
  · rw [if_pos htext]
    rw [Bool.and_eq_true, Bool.not_eq_true', Option.any_eq_false] at htext
    cases value with
    | string s => exact .inl ⟨s, rfl, htext.2, rfl⟩
    | _ => cases htext.1
  · rw [if_neg htext]
    by_cases hform : (value.isObject && declared.any MediaType.isForm) = true
    · rw [if_pos hform]
      rw [Bool.and_eq_true] at hform
      cases value with
      | object fields =>
          cases declared with
          | none => cases hform.2
          | some m => exact .inr (.inl ⟨fields, m, rfl, rfl, hform.2, rfl⟩)
      | _ => cases hform.1
    · rw [if_neg hform]
      by_cases hjson : declared.all MediaType.isJson = true
      · have hall : ∀ m ∈ declared, m.isJson = true := (Option.all_eq_true _ _).1 hjson
        rw [if_pos hjson]
        refine .inr (.inr (.inl ⟨?_, hall, rfl⟩))
        -- A text would have been written as such: no JSON format is a form.
        refine Bool.eq_false_iff.2 fun hstring => htext ?_
        rw [hstring, Bool.true_and, Bool.not_eq_true', Option.any_eq_false]
        exact fun m hm => MediaType.isForm_of_isJson (hall m hm)
      · rw [if_neg hjson]
        refine .inr (.inr (.inr ⟨?_, _, rfl⟩))
        rintro (⟨hstring, hplain⟩ | ⟨fields, rfl, -, m, hm, hmform⟩ | ⟨-, hall⟩)
        · refine htext ?_
          rw [hstring, Bool.true_and, Bool.not_eq_true', Option.any_eq_false]
          exact hplain
        · refine hform ?_
          rw [Option.mem_def.1 hm]
          exact hmform
        · exact hjson ((Option.all_eq_true _ _).2 hall)

/-! ### What was written and what it is read as -/

/-- The media type that was chosen: the declared one, with the boundary for a form in parts, and
without a declared one that of plain texts or of JSON. -/
def HasMediaType (boundary : Boundary) (value : Json) (declared : Option MediaType)
    (encoded : EncodedBody) : Prop :=
  match declared with
  | none => encoded.mediaType = if value.isString then MediaType.plainText else MediaType.json
  | some m => if m.isFormData then TellsBoundary boundary encoded else encoded.mediaType = m

theorem not_isFormData_of_not_isForm {m : MediaType} (h : m.isForm = false) :
    ¬ m.isFormData = true := by
  rw [MediaType.isForm, Bool.or_eq_false_iff] at h
  rw [h.2]
  exact Bool.false_ne_true

/-- The media type of what is no form. -/
theorem hasMediaType_of_not_isForm {encoded : EncodedBody} {m : MediaType}
    (hplain : ∀ m ∈ declared, m.isForm = false)
    (hm : m = if value.isString then MediaType.plainText else MediaType.json)
    (htype : encoded.mediaType = declared.getD m) :
    HasMediaType boundary value declared encoded := by
  cases declared with
  | none => exact htype.trans hm
  | some declared =>
      rw [HasMediaType, if_neg (not_isFormData_of_not_isForm (hplain declared rfl))]
      exact htype

/-- Some codec is found for the shape, and reading with it has the result. -/
def ReadAs (boundary : Boundary) (encoded : EncodedBody) (shape : Shape)
    (result : Except CodecError (Option Json)) : Prop :=
  ∀ name, ∃ codec, findReader (defaults boundary) ⟨name, shape⟩ encoded.mediaType = .ok codec
    ∧ codec.read encoded.bytes encoded.mediaType = result

/-- A text is read by the codec of texts, whatever the media type is. -/
theorem readAs_text (boundary : Boundary) (s : String) (m : MediaType) :
    ReadAs boundary ⟨Bytes.ofText s, m⟩ .text (.ok (some (.string s))) := by
  refine fun name => ⟨text, rfl, ?_⟩
  simp only [text, Utf8.decode_ofText]

/-- For any value the codec of JSON is found where the media type is a JSON format. -/
theorem findReader_json (boundary : Boundary) (name : String) {m : MediaType}
    (hm : m.isJson = true) :
    findReader (defaults boundary) ⟨name, .any⟩ m = .ok json := by
  have hform : (form boundary).canRead ⟨name, .any⟩ m = false :=
    (Bool.or_eq_false_iff.1 (MediaType.isForm_of_isJson hm)).1
  have hfind : (defaults boundary).find? (·.canRead ⟨name, .any⟩ m) = some json := by
    rw [defaults, List.find?_cons_of_neg (by exact Bool.false_ne_true),
      List.find?_cons_of_neg (by rw [hform]; exact Bool.false_ne_true),
      List.find?_cons_of_pos (by exact hm)]
  rw [findReader, hfind]

/-- A value of any shape is read by the codec of JSON where the media type is a JSON format. -/
theorem readAs_json (boundary : Boundary) (bytes : Bytes) {m : MediaType} (hm : m.isJson = true) :
    ReadAs boundary ⟨bytes, m⟩ .any (readJson bytes) :=
  fun name => ⟨json, findReader_json boundary name hm, rfl⟩

theorem ReadAs.unique {encoded : EncodedBody} {shape : Shape}
    {a b : Except CodecError (Option Json)} (ha : ReadAs boundary encoded shape a)
    (hb : ReadAs boundary encoded shape b) : a = b := by
  obtain ⟨_, hfound, rfl⟩ := ha ""
  obtain ⟨_, hfound', rfl⟩ := hb ""
  rw [Except.ok.inj (hfound.symm.trans hfound')]

theorem isJson_getD (hall : ∀ m ∈ declared, m.isJson = true) :
    (declared.getD MediaType.json).isJson = true := by
  cases declared with
  | none => rfl
  | some m => exact hall m rfl

/-! ### The default codecs -/

/-- Only texts come to the writer of texts, and only objects to the writer of forms. -/
theorem writeBody_of_writers (boundary : Boundary) (value : Json) (declared : Option MediaType)
    (hints : Hints) {writeText writeForm : Writer}
    (htext : ∀ s, writeText (.string s) declared hints = text.write (.string s) declared hints)
    (hform : ∀ fields, writeForm (.object fields) declared hints =
      (form boundary).write (.object fields) declared hints) :
    writeBody (defaultsWriting boundary writeText writeForm) value declared hints =
      writeBody (defaults boundary) value declared hints := by
  rw [defaults_eq, writeBody_defaultsWriting, writeBody_defaultsWriting]
  cases value with
  | string s => rw [htext]; rfl
  | object fields => rw [hform]; rfl
  | _ => rfl

/-- Writing succeeds for what can be written. -/
theorem exists_writeBody_iff (boundary : Boundary) (value : Json) (declared : Option MediaType)
    (hints : Hints) :
    (∃ encoded, writeBody (defaults boundary) value declared hints = .ok encoded) ↔
      IsWritable value declared := by
  rcases writeBody_outcome boundary value declared hints with
    ⟨s, rfl, hplain, hwrite⟩ | ⟨fields, m, rfl, rfl, hm, hwrite⟩ | ⟨hstring, hall, hwrite⟩
      | ⟨hnot, name, hwrite⟩
  · exact ⟨fun _ => .inl ⟨rfl, hplain⟩, fun _ => ⟨_, hwrite⟩⟩
  · rw [hwrite]
    rcases writeForm_object boundary fields m with ⟨⟨encoded, hencoded, -⟩, hflat⟩ | ⟨herror, hnot⟩
    · exact ⟨fun _ => .inr (.inl ⟨fields, rfl, hflat, m, rfl, hm⟩), fun _ => ⟨encoded, hencoded⟩⟩
    · refine ⟨fun ⟨_, hok⟩ => (nomatch herror.symm.trans hok), ?_⟩
      rintro (⟨hstring, -⟩ | ⟨_, hfields, hflat, -⟩ | ⟨-, hall⟩)
      · cases hstring
      · obtain rfl := Json.object.inj hfields
        exact absurd hflat hnot
      · exact absurd ((MediaType.isJson_of_isForm hm).symm.trans (hall m rfl)) Bool.false_ne_true
  · exact ⟨fun _ => .inr (.inr ⟨hstring, hall⟩), fun _ => ⟨_, hwrite⟩⟩
  · exact ⟨fun ⟨_, hok⟩ => (nomatch hwrite.symm.trans hok), fun h => absurd h hnot⟩

/-- The codec of forms is never given what is no object. -/
theorem writeBody_ne_notObject (boundary : Boundary) (value : Json) (declared : Option MediaType)
    (hints : Hints) (name : String) :
    writeBody (defaults boundary) value declared hints ≠
      .error (.unsupportedValue name .notObject) := by
  intro herror
  rcases writeBody_outcome boundary value declared hints with
    ⟨_, -, -, hwrite⟩ | ⟨fields, m, -, -, -, hwrite⟩ | ⟨-, -, hwrite⟩ | ⟨-, _, hwrite⟩
  · cases hwrite.symm.trans herror
  · rcases writeForm_object boundary fields m with ⟨⟨_, hencoded, -⟩, -⟩ | ⟨hfault, -⟩
    · cases (hwrite.trans hencoded).symm.trans herror
    · cases (hwrite.trans hfault).symm.trans herror
  · cases hwrite.symm.trans herror
  · cases hwrite.symm.trans herror

/-- What was written has the media type that was chosen. -/
theorem hasMediaType_of_writeBody {encoded : EncodedBody}
    (h : writeBody (defaults boundary) value declared hints = .ok encoded) :
    HasMediaType boundary value declared encoded := by
  rcases writeBody_outcome boundary value declared hints with
    ⟨s, rfl, hplain, hwrite⟩ | ⟨fields, m, rfl, rfl, -, hwrite⟩ | ⟨hstring, hall, hwrite⟩
      | ⟨-, name, hwrite⟩
  · obtain rfl := Except.ok.inj (hwrite.symm.trans h)
    exact hasMediaType_of_not_isForm hplain rfl rfl
  · rcases writeForm_object boundary fields m with ⟨⟨written, hwritten, htype⟩, -⟩ | ⟨hfault, -⟩
    · obtain rfl := Except.ok.inj ((hwrite.trans hwritten).symm.trans h)
      exact htype
    · cases (hwrite.trans hfault).symm.trans h
  · obtain rfl := Except.ok.inj (hwrite.symm.trans h)
    refine hasMediaType_of_not_isForm (m := MediaType.json) (fun m hm => ?_)
      (by rw [hstring]; rfl) rfl
    exact MediaType.isForm_of_isJson (hall m hm)
  · cases hwrite.symm.trans h

/-- A text that was written is read back. -/
theorem readAs_of_writeBody_string {s : String} {encoded : EncodedBody}
    (h : writeBody (defaults boundary) (.string s) declared hints = .ok encoded) :
    ReadAs boundary encoded .text (.ok (some (.string s))) := by
  rcases writeBody_outcome boundary (.string s) declared hints with
    ⟨_, hs, -, hwrite⟩ | ⟨_, _, hfields, -⟩ | ⟨hstring, -⟩ | ⟨-, _, hwrite⟩
  · obtain rfl := Json.string.inj hs
    obtain rfl := Except.ok.inj (hwrite.symm.trans h)
    exact readAs_text boundary s _
  · cases hfields
  · cases hstring
  · cases hwrite.symm.trans h

/-- What the codec of JSON wrote is read by the codec of JSON. -/
theorem readAs_of_writeBody_json {encoded : EncodedBody}
    (h : writeBody (defaults boundary) value declared hints = .ok encoded)
    (hstring : value.isString = false) (hall : ∀ m ∈ declared, m.isJson = true) :
    ReadAs boundary encoded .any (readJson (writeJson value hints)) := by
  rcases writeBody_outcome boundary value declared hints with
    ⟨s, rfl, -⟩ | ⟨_, m, -, rfl, hm, -⟩ | ⟨-, -, hwrite⟩ | ⟨-, _, hwrite⟩
  · cases hstring
  · exact absurd ((MediaType.isJson_of_isForm hm).symm.trans (hall m rfl)) Bool.false_ne_true
  · obtain rfl := Except.ok.inj (hwrite.symm.trans h)
    exact readAs_json boundary _ (isJson_getD hall)
  · cases hwrite.symm.trans h

/-- **The default codecs write what they can write, and it can be read.** Only texts come to the
codec of texts and only objects to the codec of forms. Writing succeeds for exactly what can be
written, and has the media type that was chosen. A text is read back. A value that was written as
JSON is read as the value, where null is nothing and every double is what its text is read as; that
is the double itself if its text is short, and off by a few roundings otherwise. A value that nests
too deeply is refused. -/
theorem encoding_loses_nothing (boundary : Boundary) (value : Json) (declared : Option MediaType)
    (hints : Hints) :
    (∀ writeText writeForm : Writer,
        (∀ s, writeText (.string s) declared hints = text.write (.string s) declared hints) →
        (∀ fields, writeForm (.object fields) declared hints =
          (form boundary).write (.object fields) declared hints) →
        writeBody (defaultsWriting boundary writeText writeForm) value declared hints =
          writeBody (defaults boundary) value declared hints)
      ∧ (∀ name, writeBody (defaults boundary) value declared hints ≠
          .error (.unsupportedValue name .notObject))
      ∧ ((∃ encoded, writeBody (defaults boundary) value declared hints = .ok encoded) ↔
          IsWritable value declared)
      ∧ (∀ encoded, writeBody (defaults boundary) value declared hints = .ok encoded →
          HasMediaType boundary value declared encoded
          ∧ (value.isString = true → ReadAs boundary encoded .text (.ok (some value)))
          ∧ (value.isString = false → (∀ m ∈ declared, m.isJson = true) → hints.view = none →
            value.Everywhere IsRegular →
              (value.height ≤ Reader.maxDepth →
                ReadAs boundary encoded .any
                  (.ok (if value.isNull then none else some value.reread)))
              ∧ (Reader.maxDepth < value.height → ∃ e, e.fault = .recursionLimit
                ∧ ReadAs boundary encoded .any (.error (.json (.malformed e))))
              ∧ (value.Everywhere IsShort → value.reread = value)))
      ∧ ∀ d : Double, d.IsFinite → d.reread.IsFinite
          ∧ |d.reread.value - d.value| ≤ 18 * (|d.value| / 2 ^ 53 + 2 ^ (-1075 : Int)) := by
  refine ⟨fun _ _ htext hform => writeBody_of_writers boundary value declared hints htext hform,
    writeBody_ne_notObject boundary value declared hints,
      exists_writeBody_iff boundary value declared hints,
    fun encoded h => ⟨hasMediaType_of_writeBody h, ?_, ?_⟩, fun d hd => Double.reread_near hd⟩
  · intro hstring
    cases value with
    | string s => exact readAs_of_writeBody_string h
    | _ => cases hstring
  · intro hstring hall hview hregular
    have hread := readAs_of_writeBody_json h hstring hall
    refine ⟨fun hheight => ?_, fun hheight => ?_, reread_of_isShort hregular⟩
    · rwa [readJson_writeJson hview hregular hheight] at hread
    · obtain ⟨e, hrefused, hfault⟩ := readJson_writeJson_of_lt hview hregular hheight
      rw [hrefused] at hread
      exact ⟨e, hfault, hread⟩

/-- The number 2⁶⁴ + 21 · 2¹², a double. -/
def longNumber : Json := .number (.double ⟨0x43f0000000000015⟩)

/-- A boundary. -/
def plainBoundary : Boundary := ⟨"00000000000000000000000000000000", by decide⟩

/-- The text of this number has seventeen digits. They are rounded before they are moved, and that
gives the next number. -/
theorem long_number_read_as_next :
    ∃ encoded, writeBody (defaults plainBoundary) longNumber none {} = .ok encoded
      ∧ encoded.bytes = Bytes.ofText "1.8446744073709638e+19" ∧ encoded.mediaType = MediaType.json
      ∧ ReadAs plainBoundary encoded .any (.ok (some (.number (.double ⟨0x43f0000000000016⟩))))
      ∧ ¬ ReadAs plainBoundary encoded .any (.ok (some longNumber)) := by
  have hregular : longNumber.Everywhere IsRegular := show Double.IsFinite _ by decide
  have hreread : longNumber.reread = .number (.double ⟨0x43f0000000000016⟩) :=
    congrArg (fun d => Json.number (.double d))
      (show Double.reread ⟨0x43f0000000000015⟩ = _ by decide +kernel)
  have hwrite : writeBody (defaults plainBoundary) longNumber none {} =
      .ok ⟨writeJson longNumber {}, MediaType.json⟩ := rfl
  have hread := readAs_of_writeBody_json hwrite rfl nofun
  rw [readJson_writeJson rfl hregular (Nat.zero_le _), hreread] at hread
  refine ⟨_, hwrite, ?_, rfl, hread, fun hsame => ?_⟩
  · show writeJson longNumber {} = _
    decide +kernel
  · have hnumber := Json.number.inj (Option.some.inj (Except.ok.inj (hread.unique hsame)))
    exact absurd hnumber (by decide)

end Codec

end ApiClient
