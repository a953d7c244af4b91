import ApiClient.Proofs.DraftResidue
import ApiClient.Proofs.HeaderComposition

/-!
# ApiClient.Proofs.DeferredHeaders

Headers that are set to a text, and the errors that wait for the end of a draft.

Five calls set a header to a text, and a text that is no header value leaves nothing but a mark on
the draft. `DraftCall` is a call on a draft that does not end it, and a draft is in the state that a
row of such calls made of it. No call takes the mark away, so behind a row the mark tells whether
there was a text that is no header value in it (`Draft.after_marks`), whatever came before and after
that text. The build looks at the mark before anything else, and takes it. So a marked draft is
refused as it is, and the draft that is left has no mark, like every draft that a terminal call
leaves (`Client.Fresh`).

Without a mark each of the texts became the only value of its header, and it stays that until
another call touches the header (`Draft.Untouched`). The build puts it into the request, where the
body may still replace a media type.
-/

namespace ApiClient

variable {σ α : Type}

/-! ### Calls on a draft -/

/-- A call on a draft that does not end it. -/
inductive DraftCall where
  /-- Sets the address to a template. -/
  | template (template : String) (bindings : Variables)
  /-- Sets the address to a URL. -/
  | url (url : Url)
  /-- Sets the protocol version. -/
  | version (version : Version)
  /-- Adds a header line. -/
  | header (name : HeaderName) (value : HeaderValue)
  /-- Changes the headers. -/
  | headers (change : HeaderMap → HeaderMap)
  /-- Sets the accepted media types. -/
  | accept (mediaTypes : List MediaType)
  /-- Sets the accepted character sets. -/
  | acceptCharset (charsets : List String)
  /-- Sets the media type of the body. -/
  | contentType (mediaType : MediaType)
  /-- Sets the tags of which the resource must have none. -/
  | ifNoneMatch (tags : List String)
  /-- Sets the date after which the resource must have changed. -/
  | ifModifiedSince (seconds : Int)
  /-- Adds a cookie. -/
  | cookie (name value : String)
  /-- Changes the cookies. -/
  | cookies (change : Cookies → Cookies)
  /-- Changes what codecs are told. -/
  | hints (change : Hints → Hints)
  /-- Changes the settings that travel with the request. -/
  | extensions (change : Extensions → Extensions)
  /-- Sets what is put behind the name of the sending software. -/
  | appendedUserAgent (text : String)
  /-- Sets the body to a structured value. -/
  | value (value : Except Json.Error Json)
  /-- Sets the body to a text. -/
  | text (text : String)
  /-- Sets the body to bytes. -/
  | bytes (data : Bytes)
  /-- Sets the body to a stream. -/
  | stream (source : Stream) (size : Option Nat)
  /-- Sets the body to a form in parts. -/
  | multipart (form : Multipart)

namespace DraftCall

/-- What a call makes of a draft. -/
def apply : DraftCall → Draft → Draft
  | .template s bindings, d => d.setTemplate s bindings
  | .url u, d => d.setUrl u
  | .version v, d => { d with version := v }
  | .header name v, d => d.addHeader name v
  | .headers change, d => d.editHeaders change
  | .accept mediaTypes, d => d.accept mediaTypes
  | .acceptCharset charsets, d => d.acceptCharset charsets
  | .contentType mediaType, d => d.setContentType mediaType
  | .ifNoneMatch tags, d => d.ifNoneMatch tags
  | .ifModifiedSince seconds, d => d.ifModifiedSince seconds
  | .cookie name s, d => d.addCookie name s
  | .cookies change, d => d.editCookies change
  | .hints change, d => { d with hints := change d.hints }
  | .extensions change, d => { d with extensions := change d.extensions }
  | .appendedUserAgent s, d => { d with appendedUserAgent := s }
  | .value result, d => d.setValue result
  | .text s, d => d.setText s
  | .bytes data, d => d.setBytes data
  | .stream source size, d => d.setStream source size
  | .multipart form, d => d.setMultipart form

/-- The header that the call sets to a text, and the text: what was given, joined by commas. -/
def setting? : DraftCall → Option (HeaderName × String)
  | .accept mediaTypes => some (.accept, ", ".intercalate (mediaTypes.map MediaType.text))
  | .acceptCharset charsets => some (.acceptCharset, ", ".intercalate charsets)
  | .contentType mediaType => some (.contentType, mediaType.text)
  | .ifNoneMatch tags => some (.ifNoneMatch, ", ".intercalate tags)
  | .ifModifiedSince seconds => some (.ifModifiedSince, Date.text seconds)
  | _ => none

/-- The call sets a header to a text that is no header value. -/
def IsInvalid (call : DraftCall) : Prop :=
  ∃ setting ∈ call.setting?, ∃ b ∈ Bytes.ofText setting.2, HeaderValue.isByte b = false

instance (call : DraftCall) : Decidable call.IsInvalid :=
  inferInstanceAs (Decidable (∃ setting ∈ call.setting?,
    ∃ b ∈ Bytes.ofText setting.2, HeaderValue.isByte b = false))

/-- The call does not touch a header of the draft. -/
structure Spares (name : HeaderName) (d : Draft) (call : DraftCall) : Prop where
  /-- It does not set the header. -/
  unset : ∀ text, call.setting? ≠ some (name, text)
  /-- It does not add a line to it. -/
  added : ∀ other value, call = .header other value → name ≠ other
  /-- It does not change it with a change of the headers. -/
  edited : ∀ change, call = .headers change → (change d.headers).values name = d.headers.values name

end DraftCall

namespace Draft

/-- What calls make of a draft, one after the other. -/
def after (d : Draft) (calls : List DraftCall) : Draft := calls.foldl (fun d call => call.apply d) d

/-- No call of a row touches a header. -/
def Untouched (name : HeaderName) : Draft → List DraftCall → Prop
  | _, [] => True
  | d, call :: rest => call.Spares name d ∧ Untouched name (call.apply d) rest

theorem after_append (d : Draft) (first second : List DraftCall) :
    d.after (first ++ second) = (d.after first).after second := List.foldl_append

end Draft

/-! ### One call -/

/-- Setting a header to a text gives the header the bytes of the text, unless one of them may not
stand in a header value; then it leaves a mark and nothing else. -/
theorem Draft.setHeader_cases (d : Draft) (name : HeaderName) (text : String) :
    (∃ v : HeaderValue, v.bytes = Bytes.ofText text
        ∧ d.setHeader name text = { d with headers := d.headers.insert name v })
      ∨ (∃ b ∈ Bytes.ofText text, HeaderValue.isByte b = false)
        ∧ d.setHeader name text = { d with hasInvalidHeader := true } := by
  by_cases hvalid : (Bytes.ofText text).all HeaderValue.isByte = true
  · refine .inl ⟨⟨Bytes.ofText text, hvalid⟩, rfl, ?_⟩
    rw [setHeader, HeaderValue.ofText?, HeaderValue.ofBytes?, dif_pos hvalid]
  · refine .inr ⟨by simpa using hvalid, ?_⟩
    rw [setHeader, HeaderValue.ofText?, HeaderValue.ofBytes?, dif_neg hvalid]

namespace DraftCall

variable {call : DraftCall} {d : Draft} {name : HeaderName} {text : String}

theorem apply_of_setting? (h : call.setting? = some (name, text)) (d : Draft) :
    call.apply d = d.setHeader name text := by
  cases call <;> cases h <;> rfl

theorem isInvalid_iff (h : call.setting? = some (name, text)) :
    call.IsInvalid ↔ ∃ b ∈ Bytes.ofText text, HeaderValue.isByte b = false := by
  simp only [IsInvalid, h, Option.mem_some_iff, exists_eq_left']

/-- A call marks the draft if its text is no header value, and no call takes the mark away. -/
theorem apply_marks (call : DraftCall) (d : Draft) :
    (call.apply d).hasInvalidHeader = true ↔ d.hasInvalidHeader = true ∨ call.IsInvalid := by
  cases hsetting : call.setting? with
  | none =>
      have hkept : (call.apply d).hasInvalidHeader = d.hasInvalidHeader := by
        cases call with
        | accept | acceptCharset | contentType | ifNoneMatch | ifModifiedSince =>
            exact absurd hsetting (Option.some_ne_none _)
        | _ => rfl
      simp [hkept, IsInvalid, hsetting]
  | some setting =>
      obtain ⟨name, text⟩ := setting
      rw [apply_of_setting? hsetting, isInvalid_iff hsetting]
      rcases d.setHeader_cases name text with ⟨v, hbytes, hset⟩ | ⟨hbyte, hset⟩
      · have hvalid := v.valid
        rw [hbytes, List.all_eq_true] at hvalid
        rw [hset]
        exact ⟨.inl, fun h => h.resolve_right fun ⟨b, hb, hbad⟩ => by simp [hvalid b hb] at hbad⟩
      · rw [hset]
        exact ⟨fun _ => .inr hbyte, fun _ => rfl⟩

/-- A call that does not touch a header leaves its values. -/
theorem Spares.values_apply (h : call.Spares name d) :
    (call.apply d).headers.values name = d.headers.values name := by
  cases hsetting : call.setting? with
  | some setting =>
      obtain ⟨other, text⟩ := setting
      have hother : name ≠ other := by
        rintro rfl
        exact h.unset text hsetting
      rw [apply_of_setting? hsetting]
      rcases d.setHeader_cases other text with ⟨v, -, hset⟩ | ⟨-, hset⟩
      · rw [hset]
        exact HeaderMap.values_insert_of_ne hother ..
      · rw [hset]
  | none =>
      cases call with
      | header other value => exact HeaderMap.values_append_of_ne (h.added other value rfl) ..
      | headers change => exact h.edited change rfl
      | accept | acceptCharset | contentType | ifNoneMatch | ifModifiedSince =>
          exact absurd hsetting (Option.some_ne_none _)
      | _ => rfl

end DraftCall

/-! ### Rows of calls -/

namespace Draft

variable {d : Draft} {name : HeaderName} {text : String}

/-- Behind a row of calls the mark tells whether there was a text in it that is no header value. -/
theorem after_marks (calls : List DraftCall) (d : Draft) :
    (d.after calls).hasInvalidHeader = true ↔
      d.hasInvalidHeader = true ∨ ∃ call ∈ calls, call.IsInvalid := by
  induction calls generalizing d with
  | nil => simp [after]
  | cons call rest ih =>
      have hrest := ih (call.apply d)
      rw [call.apply_marks] at hrest
      simp only [List.mem_cons, exists_eq_or_imp, ← or_assoc]
      exact hrest

/-- A header that no call of a row touches keeps its values. -/
theorem Untouched.values_after {calls : List DraftCall} (h : Untouched name d calls) :
    (d.after calls).headers.values name = d.headers.values name := by
  induction calls generalizing d with
  | nil => rfl
  | cons call rest ih => exact (ih h.2).trans h.1.values_apply

/-- The last text that a header was set to is its only value. -/
theorem values_after_setting {before later : List DraftCall} {call : DraftCall}
    (hsetting : call.setting? = some (name, text)) (hvalid : ¬ call.IsInvalid)
    (huntouched : Untouched name (call.apply (d.after before)) later) : ∃ v : HeaderValue,
      v.bytes = Bytes.ofText text ∧ (d.after (before ++ call :: later)).headers.values name =
        [v] := by
  have hlater := huntouched.values_after
  rw [d.after_append before (call :: later)]
  rw [DraftCall.apply_of_setting? hsetting] at hlater
  rcases (d.after before).setHeader_cases name text with ⟨v, hbytes, hset⟩ | ⟨hbyte, -⟩
  · rw [hset, HeaderMap.values_insert_self, ← hset, ← DraftCall.apply_of_setting? hsetting]
      at hlater
    exact ⟨v, hbytes, hlater⟩
  · exact absurd ((DraftCall.isInvalid_iff hsetting).2 hbyte) hvalid

end Draft

/-! ### Ends of a draft -/

namespace Client

variable {c : Client σ} {d left : Draft} {e : ClientError}

/-- A draft on which no call was made since it was new, or since the last terminal call. -/
inductive Fresh (c : Client σ) : Draft → Prop where
  /-- A new draft, in front of what is done to every new draft. -/
  | new (method : Method) : Fresh c { method, appendedUserAgent := c.appendedUserAgent }
  /-- What a retrieval left. -/
  | retrieved (d : Draft) (j : Journal σ) : Fresh c (c.retrieve d j).1.2
  /-- What an exchange left. -/
  | exchanged {α : Type} (handler : RequestParts → Reply → Call σ (Reply × Except Failure α))
      (d : Draft) (j : Journal σ) : Fresh c (c.exchange handler d j).1.2
  /-- What an exchange for a value left. -/
  | exchangedRequired {α : Type}
      (handler : RequestParts → Reply → Call σ (Reply × Except Failure (Option α))) (d : Draft)
      (j : Journal σ) : Fresh c (c.exchangeRequired handler d j).1.2

/-- Every way to end the draft fails with the error, leaves this of the draft, and does nothing
else. No hook is asked, and nothing is sent. -/
structure Refuses (c : Client σ) (d left : Draft) (e : ClientError) : Prop where
  /-- There is no request to be retrieved. -/
  retrieve : ∀ j, c.retrieve d j = (({ client := c, request := .error e }, left), j)
  /-- All ways to end a retrieval fail. -/
  fetch : ∀ {α : Type} (handlers : List (StatusHandler σ)) (t : Terminal α) (j : Journal σ),
    c.fetch d handlers t j = (.error e, j)
  /-- They note nothing. -/
  fetch_tells : ∀ {α : Type} (handlers : List (StatusHandler σ)) (t : Terminal α),
    Call.Tells ((c.watched handlers.length).fetch d (watchHandlers 0 handlers) t)
      (c.fetch d handlers t)
      fun _ told => told = []
  /-- An exchange fails. -/
  exchange : ∀ {α : Type} (handler : RequestParts → Reply → Call σ (Reply × Except Failure α))
    (j : Journal σ), c.exchange handler d j = ((.error e, left), j)
  /-- It notes nothing. -/
  exchange_tells : ∀ {α : Type} (calls : Nat)
    (handler : RequestParts → Reply → Call σ (Reply × Except Failure α)),
    Call.Tells ((c.watched calls).exchange (watchExchange handler) d) (c.exchange handler d)
      fun _ told => told = []
  /-- An exchange for a value fails. -/
  exchangeRequired : ∀ {α : Type}
    (handler : RequestParts → Reply → Call σ (Reply × Except Failure (Option α))) (j : Journal σ),
    c.exchangeRequired handler d j = ((.error e, left), j)

/-- The request of a draft, whether the draft has a mark or not. -/
def assemble (c : Client σ) (d : Draft) : Except ClientError Prepared := do
  let url ← (c.addressOf d.uri).mapError ClientError.ofAddress
  let headers ← c.headersOf d
  let (headers, body) ← encodeBody c.codecs d.hints headers d.body
  .ok (partsOf d url headers, body)

/-- A build takes the mark, if there is one. -/
theorem BuildEnds.unmarked {result : Except ClientError Prepared} (h : c.BuildEnds d result left) :
    left.hasInvalidHeader = false := by
  cases h with
  | marked => rfl
  | address hmark => exact hmark
  | cookies hmark => exact hmark
  | body hmark => exact hmark
  | built hmark => exact hmark

theorem Fresh.unmarked (h : c.Fresh d) : d.hasInvalidHeader = false := by
  cases h with
  | new method => rfl
  | retrieved d j =>
      rw [c.retrieve_left]
      exact (c.build_ends d).unmarked
  | exchanged handler d j =>
      rw [c.exchange_left]
      exact (c.build_ends d).unmarked
  | exchangedRequired handler d j =>
      rw [c.exchangeRequired_left]
      exact (c.build_ends d).unmarked

theorem build_of_marked (h : d.hasInvalidHeader = true) :
    c.build d = (.error .invalidHeader, { d with hasInvalidHeader := false }) := by
  rw [build, if_pos h]

theorem assemble_eq {url : Uri} {headers : HeaderMap} (haddress : c.addressOf d.uri = .ok url)
    (hheaders : c.headersOf d = .ok headers) :
    c.assemble d = (encodeBody c.codecs d.hints headers d.body).bind fun encoded =>
      .ok (partsOf d url encoded.1, encoded.2) := by
  rw [assemble, haddress, hheaders]
  rfl

/-- A build of a draft without a mark fails for other reasons only. -/
theorem build_of_unmarked (h : d.hasInvalidHeader = false) : (c.build d).1 = c.assemble d := by
  have hends := c.build_ends d
  generalize (c.build d).1 = result at hends ⊢
  generalize (c.build d).2 = left at hends
  cases hends with
  | marked hmark => exact absurd (h.symm.trans hmark) Bool.false_ne_true
  | address _ haddress =>
      rw [assemble, haddress]
      rfl
  | cookies _ haddress hheaders =>
      rw [assemble, haddress, hheaders]
      rfl
  | body _ haddress hheaders hbody =>
      rw [assemble_eq haddress hheaders, hbody]
      rfl
  | built _ haddress hheaders hbody =>
      rw [assemble_eq haddress hheaders, hbody]
      rfl

/-- Without a request a call stops before anything is noted. -/
theorem Proceeds.told_of_error
    {finish : RequestParts → Reply → Except ClientError α → List Event → Prop}
    {result : Except ClientError α} {told : List Event}
    (h : c.Proceeds (.error e) finish result told) : told = [] := by
  cases h with
  | building => rfl
  | reading _ _ _ _ hrequest => cases hrequest
  | sending _ _ _ _ _ _ _ _ hrequest => cases hrequest
  | finishing _ _ _ _ _ _ _ _ _ _ hrequest => cases hrequest

/-- Where the build fails, no terminal call does anything. -/
theorem refuses_of_build (h : c.build d = (.error e, left)) : c.Refuses d left e := by
  have hprepare (j : Journal σ) : c.prepare d j = ((.error e, left), j) := by
    rw [prepare, h]
    rfl
  have hexchange {α : Type} (handler : RequestParts → Reply → Call σ (Reply × Except Failure α))
      (j : Journal σ) : c.exchange handler d j = ((.error e, left), j) := by
    rw [exchange, Call.bind_apply, hprepare]
    rfl
  have hbuild : (c.build d).1 = .error e := congrArg Prod.fst h
  constructor
  · intro j
    rw [retrieve, Call.bind_apply, hprepare]
    rfl
  · intro α handlers t j
    rw [fetch_eq, Call.bind_apply, hprepare, Terminal.run_eq_finish]
    cases t <;> rfl
  · intro α handlers t
    refine (ApiClient.fetch_tells c d handlers t).mono ?_
    rintro result told ⟨got, -, hproceeds⟩
    rw [hbuild] at hproceeds
    exact hproceeds.told_of_error
  · exact hexchange
  · intro α calls handler
    refine (ApiClient.exchange_tells c calls handler d).mono ?_
    rintro back told ⟨-, hproceeds⟩
    rw [hbuild] at hproceeds
    exact hproceeds.told_of_error
  · intro α handler j
    rw [exchangeRequired, Call.bind_apply, hexchange]
    rfl

end Client

/-! ### What a built request carries -/

/-- The body leaves the media type of the headers as it is, if there is one. -/
def DraftBody.KeepsType : DraftBody → Prop
  | .empty | .bytes _ | .stream .. => True
  | .value _ | .multipart _ => False

theorem DraftBody.WrittenAs.eq_given {codecs : List Codec} {hints : Hints}
    {given values : List HeaderValue} {body : RequestBody} {draftBody : DraftBody}
    (h : draftBody.WrittenAs codecs hints given values body) (hkeeps : draftBody.KeepsType)
    (hgiven : given ≠ []) : values = given := by
  cases draftBody with
  | empty => exact h.1
  | bytes data => exact h.1.trans (if_neg hgiven)
  | stream source size => exact h.1.trans (if_neg hgiven)
  | value result => exact hkeeps.elim
  | multipart form => exact hkeeps.elim

theorem DraftCall.ne_cookie_of_setting? {call : DraftCall} {name : HeaderName} {text : String}
    (h : call.setting? = some (name, text)) : name ≠ .cookie := by
  cases call with
  | accept | acceptCharset | contentType | ifNoneMatch | ifModifiedSince =>
      obtain ⟨rfl, -⟩ := Prod.mk.inj (Option.some.inj h)
      decide
  | _ => cases h

namespace Client

variable {c : Client σ} {d : Draft} {parts : RequestParts} {body : RequestBody}

/-- The request that was built of the draft behind the calls carries each header that one of them
set to a text, and that no call behind that one touched: the text is its only value, unless it is
the media type and the body replaces it. -/
def Carries (c : Client σ) (d : Draft) (calls : List DraftCall) (parts : RequestParts)
    (body : RequestBody) : Prop :=
  ∀ before call later name text, calls = before ++ call :: later →
    call.setting? = some (name, text) →
    Draft.Untouched name (call.apply (d.after before)) later → ∃ v : HeaderValue,
      v.bytes = Bytes.ofText text
      ∧ (name ≠ .contentType ∨ (d.after calls).body.KeepsType → parts.headers.values name = [v])
      ∧ (name = .contentType → (d.after calls).body.WrittenAs c.codecs (d.after calls).hints [v]
        (parts.headers.values name) body)

/-- A header of the draft, other than the cookies, is in the request as it is in the draft, or is
the media type that goes by the body. -/
theorem values_of_build (hbuild : (c.build d).1 = .ok (parts, body)) {name : HeaderName}
    {v : HeaderValue} (hcookie : name ≠ .cookie) (hvalues : d.headers.values name = [v]) :
    (name ≠ .contentType → parts.headers.values name = [v])
      ∧ (name = .contentType →
        d.body.WrittenAs c.codecs d.hints [v] (parts.headers.values name) body) := by
  obtain ⟨headers, hcookies, hbody⟩ := build_ok hbuild
  obtain ⟨hothers, htype⟩ := encodeBody_ok hbody
  have hmerged : headers.values name = [v] := by
    have hcontains : d.headers.contains name = true :=
      (d.headers.contains_iff name).2 (hvalues ▸ List.cons_ne_nil v [])
    have hgiven : (c.defaultHeaders.override d.headers).values name = [v] := by
      rw [c.values_merged, givenValues, if_pos hcontains, hvalues]
    rcases withCookies_ok hcookies with ⟨-, rfl⟩ | ⟨_, _, -, -, rfl⟩
    · exact hgiven
    · rw [HeaderMap.values_insert_of_ne hcookie, hgiven]
  constructor
  · intro hname
    rw [hothers name hname, hmerged]
  · rintro rfl
    rwa [hmerged] at htype

/-- Header texts that are no header values fail the next terminal call. The draft on which no call
was made since the last one, and then these calls, is refused as it is if one of them set a header
to such a text: the error is that of an invalid header, whatever the other calls were and whatever
the address is, and nothing is sent. If none did, the draft is assembled, and a request that is
built carries the texts. -/
theorem invalid_header_fails_next_call (hfresh : c.Fresh d) (calls : List DraftCall) :
    ((∃ call ∈ calls, call.IsInvalid) → ∃ e : ClientError, e.kind = .transport .invalidHeader
        ∧ e.cause = .transport .invalidHeader none .invalidHeaderValue
        ∧ c.Refuses (d.after calls) { d.after calls with hasInvalidHeader := false } e)
      ∧ ((∀ call ∈ calls, ¬ call.IsInvalid) →
        (c.build (d.after calls)).1 = c.assemble (d.after calls)
        ∧ ∀ parts body, (c.build (d.after calls)).1 = .ok (parts, body) →
          c.Carries d calls parts body) := by
  have hmarks := Draft.after_marks calls d
  rw [hfresh.unmarked] at hmarks
  constructor
  · intro hinvalid
    exact ⟨.invalidHeader, rfl, rfl, refuses_of_build (build_of_marked (hmarks.2 (.inr hinvalid)))⟩
  · intro hvalid
    have hunmarked : (d.after calls).hasInvalidHeader = false := by
      refine Bool.eq_false_iff.2 fun hmark => ?_
      rcases hmarks.1 hmark with hmark | ⟨call, hmem, hcall⟩
      · cases hmark
      · exact hvalid call hmem hcall
    refine ⟨build_of_unmarked hunmarked, fun parts body hbuild => ?_⟩
    intro before call later name text hcalls hsetting huntouched
    have hmem : call ∈ calls := hcalls ▸ List.mem_append_right _ List.mem_cons_self
    obtain ⟨v, hbytes, hvalues⟩ := Draft.values_after_setting hsetting (hvalid call hmem) huntouched
    rw [← hcalls] at hvalues
    obtain ⟨hothers, htype⟩ :=
      values_of_build hbuild (DraftCall.ne_cookie_of_setting? hsetting) hvalues
    refine ⟨v, hbytes, fun hkeeps => ?_, htype⟩
    by_cases hname : name = .contentType
    · exact (htype hname).eq_given (hkeeps.resolve_left (absurd hname)) (List.cons_ne_nil v [])
    · exact hothers hname

/-- If what is done to new drafts are rows of calls, a new draft is behind these calls. -/
theorem draft_eq_after (c : Client σ) (method : Method) {rows : List (List DraftCall)}
    (h : c.defaultRequests = rows.map fun calls d => d.after calls) :
    c.draft method =
      Draft.after { method, appendedUserAgent := c.appendedUserAgent } rows.flatten := by
  rw [draft, h, List.foldl_map, Draft.after, List.foldl_flatten]
  rfl

/-- A client whose drafts have a tag from the start. -/
def tagging : Client Unit where
  transport := { name := "tagging", call := fun request => pure (request, .ok {}) }
  defaultRequests := [fun d => d.ifNoneMatch ["\"v1\""]]
  codecs := []

/-- A tag with a line break, and then a tag without one, a removal of the header, and a template
that is ill-formed. -/
def brokenTag : List DraftCall :=
  [.ifNoneMatch ["a\r\nb"], .ifNoneMatch ["c"], .headers (·.erase .ifNoneMatch),
    .template "/\x7b" .none]

/-- Two tags, and then a line of another header. -/
def newTags : List DraftCall :=
  [.template "http://h" .none, .ifNoneMatch ["\"v2\"", "\"v3\""],
    .header .accept ⟨Bytes.ofText "text/xml", by decide⟩]

/-- The tag with a line break is refused, whatever comes behind it. Tags without one are carried in
the place of the tag that the client gave. -/
theorem broken_tag_refused_and_new_tags_carried :
    tagging.Fresh { method := .get }
      ∧ (∃ e left, e.kind = .transport .invalidHeader
        ∧ tagging.Refuses ((tagging.draft .get).after brokenTag) left e)
      ∧ ∃ parts body v, (tagging.build ((tagging.draft .get).after newTags)).1 = .ok (parts, body)
        ∧ v.bytes = Bytes.ofText "\"v2\", \"v3\"" ∧ parts.headers.values .ifNoneMatch = [v] := by
  have hfresh : tagging.Fresh { method := .get } := .new .get
  have hdraft : tagging.draft .get = Draft.after { method := .get } [.ifNoneMatch ["\"v1\""]] :=
    tagging.draft_eq_after .get (show _ = [[.ifNoneMatch ["\"v1\""]]].map _ from rfl)
  rw [hdraft, ← Draft.after_append, ← Draft.after_append]
  refine ⟨hfresh, ?_, ?_⟩
  · obtain ⟨hinvalid, -⟩ :=
      invalid_header_fails_next_call hfresh ([.ifNoneMatch ["\"v1\""]] ++ brokenTag)
    obtain ⟨e, hkind, -, hrefuses⟩ := hinvalid (by decide)
    exact ⟨e, _, hkind, hrefuses⟩
  · obtain ⟨-, hvalid⟩ :=
      invalid_header_fails_next_call hfresh ([.ifNoneMatch ["\"v1\""]] ++ newTags)
    obtain ⟨-, hcarries⟩ := hvalid (by decide)
    have hok : (tagging.build (Draft.after { method := .get }
        ([.ifNoneMatch ["\"v1\""]] ++ newTags))).1.isOk = true := by
      decide +kernel
    obtain ⟨⟨parts, body⟩, hbuild⟩ := exists_of_isOk hok
    obtain ⟨v, hbytes, hvalues, -⟩ := hcarries parts body hbuild
      [.ifNoneMatch ["\"v1\""], .template "http://h" .none] _ _ .ifNoneMatch _ rfl rfl
      ⟨⟨nofun, fun other value h => by cases h; decide, nofun⟩, trivial⟩
    exact ⟨parts, body, v, hbuild, hbytes, hvalues (.inl (by decide))⟩

end Client

end ApiClient
