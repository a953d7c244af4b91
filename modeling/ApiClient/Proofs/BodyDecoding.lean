import ApiClient.Proofs.CodecRegistry
import ApiClient.Proofs.FormGrouping
import ApiClient.Proofs.JsonDocuments
import ApiClient.Proofs.ReplyReading
import ApiClient.Proofs.TransportCalls

/-!
# ApiClient.Proofs.BodyDecoding

The ways to read one body agree.

A body that was not touched has its bytes in front of it, whether they come from a stream or are in
memory (`ResponseBody.Holds`). Reading all of it gives the bytes, or their text, or what a codec
decodes them into, and there is one table for each: `IsText` for the text, `DecodesToText` for the
codec of texts, and `DecodesToValue` for any value, by media type. An entity is the decoded body
with status and headers around it.

JSON is what the grammar says it is, with at most `maxDepth` brackets open at once. The limits are
seen on lists in lists, on a numeral beyond the doubles and on half of a pair of surrogates
(`json_beyond_limits_is_refused`).
-/

namespace ApiClient

open Json

/-! ### What the readings give -/

/-- What reading the whole of a body as text gives. -/
inductive IsText (body : Bytes) : Except ClientError String → Prop where
  /-- The text whose UTF-8 form the body is. -/
  | text {s : String} (h : body = Bytes.ofText s) : IsText body (.ok s)
  /-- A body that is not UTF-8 cannot be read. -/
  | malformed {e : ClientError} (h : ∀ s, body ≠ Bytes.ofText s) (he : e.kind = .localIo) :
      IsText body (.error e)

/-- What the default codecs decode the whole of a body into as text. -/
inductive DecodesToText (body : Bytes) : Except ClientError (Option Json) → Prop where
  /-- An empty body is nothing, and not the empty text. -/
  | empty (h : body = []) : DecodesToText body (.ok none)
  /-- The text whose UTF-8 form the body is. -/
  | text {s : String} (h : body = Bytes.ofText s) (hne : s ≠ "") :
      DecodesToText body (.ok (some (.string s)))
  /-- A body that is not UTF-8 is no text. -/
  | malformed {e : ClientError} (h : ∀ s, body ≠ Bytes.ofText s) (he : e.kind = .codec) :
      DecodesToText body (.error e)

/-- The fields are the pairs, brought together by name: each name stands where it came first, and
has its text, or the list of its texts if there are more. -/
structure Codec.Groups (pairs : List (String × String)) (fields : Fields) : Prop where
  /-- The names are those of the pairs, each of them once. -/
  names : fields.map (·.1) = (pairs.map (·.1)).eraseDups
  /-- A name has what its texts make up. -/
  mem_iff : ∀ name value, (name, value) ∈ fields ↔ held (textsOf name pairs) = some value

/-- What the default codecs decode the whole of a body into as any value. -/
inductive DecodesToValue (mediaType : Option MediaType) (body : Bytes) :
    Except ClientError (Option Json) → Prop where
  /-- An empty body is nothing. -/
  | empty (h : body = []) : DecodesToValue mediaType body (.ok none)
  /-- Blanks are no JSON, and count as nothing. -/
  | blank {m : MediaType} (hm : mediaType = some m) (hjson : m.isJson = true)
      (h : ∀ b ∈ body, Ascii.isBlank b = true) : DecodesToValue mediaType body (.ok none)
  /-- Null counts as nothing. -/
  | null {m : MediaType} (hm : mediaType = some m) (hjson : m.isJson = true)
      (h : Grammar.Document Reader.maxDepth body .null) : DecodesToValue mediaType body (.ok none)
  /-- The value that a JSON text spells. -/
  | value {m : MediaType} {v : Json} (hm : mediaType = some m) (hjson : m.isJson = true)
      (h : Grammar.Document Reader.maxDepth body v) (hv : v ≠ .null) :
      DecodesToValue mediaType body (.ok (some v))
  /-- What is neither blank nor JSON is refused. -/
  | malformed {m : MediaType} {e : ClientError} (hm : mediaType = some m) (hjson : m.isJson = true)
      (hblank : ¬ ∀ b ∈ body, Ascii.isBlank b = true)
        (h : ∀ v, ¬ Grammar.Document Reader.maxDepth body v)
      (he : e.kind = .codec) : DecodesToValue mediaType body (.error e)
  /-- The fields of a form. -/
  | form {m : MediaType} {fields : Fields} (hm : mediaType = some m) (hform : m.isUrlEncoded = true)
      (h : body ≠ []) (hfields : Codec.Groups (UrlEncoded.read body) fields) :
      DecodesToValue mediaType body (.ok (some (.object fields)))
  /-- Of no other media type, and without one, a body is a value. -/
  | other {e : ClientError} (hm : ∀ m ∈ mediaType, m.isJson = false ∧ m.isUrlEncoded = false)
      (h : body ≠ []) (he : e.kind = .codec) : DecodesToValue mediaType body (.error e)

/-! ### Codecs -/

namespace Codec

theorem groups_groupPairs (pairs : List (String × String)) : Groups pairs (groupPairs pairs) :=
  ⟨names_groupPairs pairs, fun _ _ => mem_groupPairs_iff⟩

theorem findReader_text (boundary : Boundary) (name : String) (m : MediaType) :
    findReader (defaults boundary) ⟨name, .text⟩ m = .ok text := rfl

theorem findReader_form (boundary : Boundary) (name : String) {m : MediaType}
    (hm : m.isUrlEncoded = true) :
    findReader (defaults boundary) ⟨name, .any⟩ m = .ok (form boundary) := by
  have hfind : (defaults boundary).find? (·.canRead ⟨name, .any⟩ m) = some (form boundary) := by
    rw [defaults, List.find?_cons_of_neg (by exact Bool.false_ne_true),
      List.find?_cons_of_pos (by exact hm)]
  rw [findReader, hfind]

theorem findReader_other (boundary : Boundary) (name : String) {m : MediaType}
    (hjson : m.isJson = false) (hform : m.isUrlEncoded = false) :
    findReader (defaults boundary) ⟨name, .any⟩ m = .error (.noReader name m.text) := by
  have hfind : (defaults boundary).find? (·.canRead ⟨name, .any⟩ m) = none := by
    rw [defaults, List.find?_cons_of_neg (by exact Bool.false_ne_true),
      List.find?_cons_of_neg
        (by rw [show Codec.canRead _ _ _ = _ from hform]; exact Bool.false_ne_true),
      List.find?_cons_of_neg
        (by rw [show Codec.canRead _ _ _ = _ from hjson]; exact Bool.false_ne_true)]
    rfl
  rw [findReader, hfind]

/-- Reading JSON gives the value that the body spells, where blanks and null are nothing. -/
theorem decodesToValue_readJson {m : MediaType} (hjson : m.isJson = true) (body : Bytes) :
    DecodesToValue (some m) body ((readJson body).mapError ClientError.ofCodec) := by
  rw [readJson]
  by_cases hblank : ∀ b ∈ body, Ascii.isBlank b = true
  · rw [if_pos (List.all_eq_true.2 hblank)]
    exact .blank rfl hjson hblank
  · rw [if_neg (mt List.all_eq_true.1 hblank)]
    cases hparse : Json.parse body with
    | error e =>
        refine .malformed rfl hjson hblank (fun v hv => ?_) rfl
        cases hparse.symm.trans (parse_eq_ok_iff.2 hv)
    | ok v =>
        have hdocument := parse_eq_ok_iff.1 hparse
        cases v with
        | null => exact .null rfl hjson hdocument
        | _ => exact .value rfl hjson hdocument (fun h => by cases h)

end Codec

/-! ### Replies -/

namespace Reply

open Codec

variable {body : Bytes}

/-- With a codec found, decoding is reading with the codec, and then conforming. -/
theorem decodeBytes_of_findReader {codecs : List Codec} {mediaType : Option MediaType}
    {m : MediaType} {target : Expectation} {codec : Codec} (hm : mediaType.getD .octetStream = m)
    (hbody : body ≠ []) (hfind : findReader codecs target m = .ok codec) :
    decodeBytes codecs mediaType target body =
      (codec.read body m).mapError ClientError.ofCodec >>= fun value =>
        match value with
        | none => .ok none
        | some value =>
            (target.shape.conform value).mapError (fun e => .ofJson (.misshapen e))
              |>.map some := by
  rw [decodeBytes, if_neg (by simpa using hbody)]
  simp only [hm, hfind]
  rfl

/-- Any value conforms. -/
theorem decodeBytes_any {codecs : List Codec} {mediaType : Option MediaType} {m : MediaType}
    {name : String} {codec : Codec} (hm : mediaType.getD .octetStream = m) (hbody : body ≠ [])
    (hfind : findReader codecs ⟨name, .any⟩ m = .ok codec) :
    decodeBytes codecs mediaType ⟨name, .any⟩ body =
      (codec.read body m).mapError ClientError.ofCodec := by
  rw [decodeBytes_of_findReader hm hbody hfind]
  rcases codec.read body m with e | _ | value <;> rfl

/-- Without a codec nothing but the empty body is decoded. -/
theorem decodeBytes_of_findReader_error {codecs : List Codec} {mediaType : Option MediaType}
    {m : MediaType} {target : Expectation} {fault : CodecError}
    (hm : mediaType.getD .octetStream = m) (hbody : body ≠ [])
    (hfind : findReader codecs target m = .error fault) :
    decodeBytes codecs mediaType target body = .error (.ofCodec fault) := by
  rw [decodeBytes, if_neg (by simpa using hbody)]
  simp only [hm, hfind]
  rfl

theorem decodesToText (boundary : Boundary) (mediaType : Option MediaType) (name : String)
    (body : Bytes) :
    DecodesToText body (decodeBytes (defaults boundary) mediaType ⟨name, .text⟩ body) := by
  by_cases hbody : body = []
  · subst hbody
    exact .empty rfl
  rw [decodeBytes_of_findReader rfl hbody (findReader_text boundary name _)]
  rcases Utf8.decode_cases body with ⟨s, hs, hdecode⟩ | ⟨hnone, fault, hdecode⟩
  · have hne : s ≠ "" := by
      rintro rfl
      exact hbody (hs.trans Bytes.ofText_empty)
    simp only [text, hdecode]
    exact .text hs hne
  · simp only [text, hdecode]
    exact .malformed hnone rfl

theorem decodesToValue (boundary : Boundary) (mediaType : Option MediaType) (name : String)
    (body : Bytes) :
    DecodesToValue mediaType body
      (decodeBytes (defaults boundary) mediaType ⟨name, .any⟩ body) := by
  by_cases hbody : body = []
  · subst hbody
    exact .empty rfl
  cases mediaType with
  | none =>
      rw [decodeBytes_of_findReader_error rfl hbody (findReader_other boundary name rfl rfl)]
      exact .other nofun hbody rfl
  | some m =>
      by_cases hjson : m.isJson = true
      · rw [decodeBytes_any (m := m) rfl hbody (findReader_json boundary name hjson)]
        exact decodesToValue_readJson hjson body
      by_cases hform : m.isUrlEncoded = true
      · rw [decodeBytes_any (m := m) rfl hbody (findReader_form boundary name hform)]
        exact .form rfl hform hbody (groups_groupPairs _)
      rw [Bool.not_eq_true] at hjson hform
      rw [decodeBytes_of_findReader_error (m := m) rfl hbody
        (findReader_other boundary name hjson hform)]
      refine .other (fun _ hm => ?_) hbody rfl
      obtain rfl := Option.some.inj hm
      exact ⟨hjson, hform⟩

/-- Reading a body that was not touched gives its bytes. -/
theorem readBytes_fresh {r : Reply} (h : r.response.body.Holds body 0) :
    r.readBytes.1 = .ok body := by
  obtain ⟨_, hread, -⟩ := readBytes_holds h
  rw [hread, ite_self, List.drop_zero]

theorem readText_fresh {r : Reply} (h : r.response.body.Holds body 0) :
    IsText body r.readText.1 := by
  obtain ⟨_, hread, -⟩ := readText_holds h
  rw [hread, ite_self, List.drop_zero, Utf8.decode?]
  rcases Utf8.decode_cases body with ⟨s, hs, hdecode⟩ | ⟨hnone, fault, hdecode⟩
  · rw [hdecode]
    exact .text hs
  · rw [hdecode]
    exact .malformed hnone rfl

/-- Decoding a body that was not touched is decoding its bytes. -/
theorem decode_fresh {r : Reply} (h : r.response.body.Holds body 0) (target : Expectation) :
    (r.decode target).1 = decodeBytes r.codecs r.mediaType? target body := by
  obtain ⟨left, hread, -⟩ := readBytes_holds h
  rw [decode, hread, ite_self, List.drop_zero]
  rfl

end Reply

/-! ### The terminals of a retrieval -/

/-- **The ways to read a response agree.** Let retrieving give a reply with the default codecs and a
body that was not touched, whatever its bytes and its headers are. Then every terminal gives what is
made of the same bytes: the bytes themselves; their text, which the codec of texts gives as well,
whatever the media type is; any value, by the media type; and an entity is what decoding gives, with
the status and the headers. -/
theorem Retrieval.readings_agree {σ : Type} (r : Retrieval σ) {j left : Journal σ} {reply : Reply}
    {body : Bytes} (boundary : Boundary) (hreply : r.reply j = (.ok reply, left))
    (hcodecs : reply.codecs = Codec.defaults boundary) (hfresh : reply.response.body.Holds body 0) :
    r.bodyBytes j = (.ok body, left)
      ∧ (∃ text, r.bodyText j = (text, left) ∧ IsText body text)
      ∧ (∀ name, ∃ value, r.body ⟨name, .text⟩ j = (value, left) ∧ DecodesToText body value)
      ∧ (∀ name, ∃ value, r.body ⟨name, .any⟩ j = (value, left)
          ∧ DecodesToValue reply.mediaType? body value)
      ∧ ∀ target, ∃ value, r.body target j = (value, left)
          ∧ r.entity target j = (value.map fun body =>
              { status := reply.response.status, headers := reply.response.headers, body },
                left) := by
  have hbody : ∀ target, r.body target j = ((reply.decode target).1, left) := fun target => by
    rw [Retrieval.body, Call.bind_apply, hreply]
    rfl
  refine ⟨?_, ⟨reply.readText.1, ?_, Reply.readText_fresh hfresh⟩, fun name => ⟨_, hbody _, ?_⟩,
    fun name => ⟨_, hbody _, ?_⟩, fun target => ⟨_, hbody target, ?_⟩⟩
  · rw [Retrieval.bodyBytes, Call.bind_apply, hreply, ← Reply.readBytes_fresh hfresh]
    rfl
  · rw [Retrieval.bodyText, Call.bind_apply, hreply]
    rfl
  · rw [Reply.decode_fresh hfresh, hcodecs]
    exact Reply.decodesToText boundary reply.mediaType? name body
  · rw [Reply.decode_fresh hfresh, hcodecs]
    exact Reply.decodesToValue boundary reply.mediaType? name body
  · rw [Retrieval.entity, Call.bind_apply, hreply]
    rfl

/-- A response with the given body that says it is JSON. -/
def Response.ofJsonText (body : Bytes) : Response where
  headers := HeaderMap.insert ∅ .contentType ⟨Bytes.ofText "application/json", by decide⟩
  body := .ofBytes body

/-- A retrieval of such a response, over the default codecs. -/
def Retrieval.ofJsonText (body : Bytes) : Retrieval Unit where
  client :=
    { transport := { name := "json", call := fun request => pure (request, .ok (.ofJsonText body)) }
      codecs := Codec.defaults Codec.plainBoundary }
  request := .ok ({}, .empty)

/-- The reply to it has the body in front of it, and is JSON. -/
theorem Retrieval.reply_ofJsonText (body : Bytes) : ∃ reply left,
    (Retrieval.ofJsonText body).reply { world := () } = (.ok reply, left)
      ∧ reply.codecs = Codec.defaults Codec.plainBoundary ∧ reply.response.body.Holds body 0
      ∧ reply.mediaType? = some MediaType.json := by
  have htype :
      Reply.mediaTypeOf
        (HeaderMap.insert ∅ .contentType ⟨Bytes.ofText "application/json", by decide⟩) =
      some MediaType.json := by decide +kernel
  exact ⟨⟨.ofJsonText body, Codec.defaults Codec.plainBoundary⟩, _, rfl, rfl, ⟨rfl, nofun⟩, htype⟩

/-- Null behind a blank is no value, but it is bytes and a text. -/
theorem null_readings_agree :
    ∃ reply left,
      (Retrieval.ofJsonText (Bytes.ofText " null")).reply { world := () } = (.ok reply, left)
      ∧ reply.codecs = Codec.defaults Codec.plainBoundary
      ∧ reply.response.body.Holds (Bytes.ofText " null") 0
      ∧ (Retrieval.ofJsonText (Bytes.ofText " null")).bodyBytes { world := () } =
          (.ok (Bytes.ofText " null"), left)
      ∧ (∃ text,
        (Retrieval.ofJsonText (Bytes.ofText " null")).bodyText { world := () } = (text, left)
          ∧ IsText (Bytes.ofText " null") text)
      ∧ ∃ value,
        (Retrieval.ofJsonText (Bytes.ofText " null")).body ⟨"Value", .any⟩ { world := () } =
          (value, left)
          ∧ DecodesToValue (some MediaType.json) (Bytes.ofText " null") value := by
  obtain ⟨reply, left, hreply, hcodecs, hfresh, htype⟩ :=
    Retrieval.reply_ofJsonText (Bytes.ofText " null")
  obtain ⟨hbytes, htext, -, hvalue, -⟩ := Retrieval.readings_agree _ _ hreply hcodecs hfresh
  rw [htype] at hvalue
  exact ⟨reply, left, hreply, hcodecs, hfresh, hbytes, htext, hvalue "Value"⟩

/-- What the reader of JSON does not accept is refused by the codec, unless it is blank. -/
theorem Retrieval.refused_ofJsonText {body : Bytes} (hblank : body.all Ascii.isBlank = false)
    (h : (Json.parse body).toOption = none) : ∃ e left,
    (Retrieval.ofJsonText body).body ⟨"Value", .any⟩ { world := () } = (.error e, left)
      ∧ e.kind = .codec := by
  obtain ⟨reply, left, hreply, hcodecs, hfresh, htype⟩ := Retrieval.reply_ofJsonText body
  have hbody : body ≠ [] := by
    rintro rfl
    cases hblank
  cases hparse : Json.parse body with
  | ok v =>
      rw [hparse] at h
      cases h
  | error e =>
      have hread : Codec.readJson body = .error (.json (.malformed e)) := by
        rw [Codec.readJson, if_neg (by rw [hblank]; exact Bool.false_ne_true), hparse]
      refine ⟨.ofCodec (.json (.malformed e)), left, ?_, rfl⟩
      rw [Retrieval.body, Call.bind_apply, hreply]
      refine congrArg (·, left) ((Reply.decode_fresh hfresh _).trans ?_)
      rw [hcodecs, htype,
        Reply.decodeBytes_any (m := .json) rfl hbody (Codec.findReader_json _ _ rfl)]
      exact congrArg (Except.mapError ClientError.ofCodec) hread

/-- Lists in lists, with nothing inside. -/
def Json.nested : Nat → Json
  | 0 => .array []
  | depth + 1 => .array [nested depth]

/-- The brackets of lists in lists. -/
def Json.nestedText (depth : Nat) : Bytes :=
  List.replicate (depth + 1) 0x5b ++ List.replicate (depth + 1) 0x5d

theorem Json.value_nestedText (depth : Nat) :
    Grammar.Value (depth + 1) (nestedText depth) (nested depth) := by
  have hgap : Grammar.IsGap [] := nofun
  induction depth with
  | zero => exact .inr (.emptyList hgap)
  | succ depth ih =>
      have hitem := Grammar.Padded.mk hgap ih hgap
      rw [List.nil_append, List.append_nil] at hitem
      have htext : nestedText (depth + 1) = 0x5b :: (nestedText depth ++ [0x5d]) := by
        rw [nestedText, nestedText, List.replicate_succ, List.replicate_succ' (n := depth + 1),
          List.cons_append, List.append_assoc]
      rw [htext]
      exact .inr (.list (.one hitem))

/-- A numeral beyond the finite doubles. -/
def Json.Grammar.Numeral.tooLarge : Grammar.Numeral where
  negative := false
  whole := ⟨[0x31], List.cons_ne_nil _ _, List.all_eq_true.1 rfl⟩
  decimals := none
  exponent := some
    { mark := 0x65
      sign := []
      digits := ⟨[0x33, 0x30, 0x39], List.cons_ne_nil _ _, List.all_eq_true.1 rfl⟩
      isMark := .inl rfl
      isSign := .inl rfl }
  zero_alone := by decide

/-- The limits of the reader. Lists in lists are JSON, but 128 brackets are not opened. A numeral
may be beyond the finite doubles, and then it is not read. An escape may be a surrogate without its
partner, and then it is not read. -/
theorem json_beyond_limits_is_refused :
    (Grammar.Document 128 (Json.nestedText 127) (Json.nested 127)
      ∧ ∃ e left,
        (Retrieval.ofJsonText (Json.nestedText 127)).body ⟨"Value", .any⟩ { world := () } =
          (.error e, left) ∧ e.kind = .codec)
      ∧ (∃ n : Grammar.Numeral, n.text = Bytes.ofText "1e309"
        ∧ ∃ e left, (Retrieval.ofJsonText n.text).body ⟨"Value", .any⟩ { world := () } =
            (.error e, left) ∧ e.kind = .codec)
      ∧ ∃ code, Grammar.CodeUnit code 0xd800
        ∧ ∃ e left,
          (Retrieval.ofJsonText (0x22 :: 0x5c :: 0x75 :: (code ++ [0x22]))).body ⟨"Value", .any⟩
            { world := () } = (.error e, left) ∧ e.kind = .codec := by
  have hnested : Grammar.Document 128 (Json.nestedText 127) (Json.nested 127) := by
    have hgap : Grammar.IsGap [] := nofun
    have hdocument := Grammar.Padded.mk hgap (Json.value_nestedText 127) hgap
    rwa [List.nil_append, List.append_nil] at hdocument
  refine ⟨⟨hnested, Retrieval.refused_ofJsonText (by decide +kernel) (by decide +kernel)⟩, ?_, ?_⟩
  · exact ⟨.tooLarge, by decide,
      Retrieval.refused_ofJsonText (by decide +kernel) (by decide +kernel)⟩
  · refine ⟨[0x64, 0x38, 0x30, 0x30],
      Grammar.CodeUnit.mk (i := 13) (j := 8) (k := 0) (l := 0) rfl rfl rfl rfl, ?_⟩
    exact Retrieval.refused_ofJsonText (by decide +kernel) (by decide +kernel)

end ApiClient
