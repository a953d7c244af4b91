import ApiClient.Client.Build
import ApiClient.Proofs.Results

/-!
# ApiClient.Proofs.HeaderComposition

The headers of a built request.

`Client.Composes` says what every name has in the headers of a request, in terms of what the caller
and the client gave: the maps, the cookies and the body. A map has each name once with its values in
order, so this leaves nothing open but the order of the names.

A build goes through stages that may each fail, so every stage has a lemma that says what its
success means (`withCookies_ok`, `withDefaultMediaType_ok`, `encodeBody_ok`). The stages behind the
merging touch one name each, and what they look up is what the merging gave.
-/

namespace ApiClient

variable {σ : Type}

/-! ### What a request should have -/

theorem HeaderValue.valid_octetStream :
    (Bytes.ofText "application/octet-stream").all isByte = true := by decide

/-- The value that names byte strings. -/
def HeaderValue.octetStream : HeaderValue :=
  ⟨Bytes.ofText "application/octet-stream", valid_octetStream⟩

/-- The values of the media type header with a body of bytes: those that were given, or else that
the body is a byte string. -/
def bytesType (given : List HeaderValue) : List HeaderValue :=
  if given = [] then [.octetStream] else given

/-- The media type that is declared by the first of the given values, if it is one. -/
def declaredType (given : List HeaderValue) : Option MediaType := do
  MediaType.parse? (← (← given.head?).text?)

/-- The body is written like this where the media type header was given the values `given`, and then
the header has `values`. A structured body has the type that it was encoded with and a form the type
with its boundary, whatever was given. -/
def DraftBody.WrittenAs (codecs : List Codec) (hints : Hints) (given values : List HeaderValue)
    (body : RequestBody) : DraftBody → Prop
  | .empty => values = given ∧ body = .empty
  | .value result => ∃ json encoded v, result = .ok json
      ∧ Codec.writeBody codecs json (declaredType given) hints = .ok encoded
      ∧ HeaderValue.ofText? encoded.mediaType.text = some v ∧ values = [v]
      ∧ body = .ofBytes encoded.bytes
  | .bytes data => values = bytesType given ∧ body = .ofBytes data
  | .stream source size => values = bytesType given ∧ body = .stream source size
  | .multipart form => ∃ v,
      HeaderValue.ofText? ("multipart/form-data; boundary=" ++ form.boundary.text) = some v
      ∧ values = [v] ∧ body = form.toBody

namespace Client

/-- What the caller and the client give a header: the values of the draft if it has the name, else
those of the client. -/
def givenValues (c : Client σ) (d : Draft) (n : HeaderName) : List HeaderValue :=
  if d.headers.contains n then d.headers.values n else c.defaultHeaders.values n

/-- A request of the draft has these headers and this body. -/
structure Composes (c : Client σ) (d : Draft) (headers : HeaderMap)
    (body : RequestBody) : Prop where
  /-- Most names have what was given. -/
  given : ∀ n, n ≠ .cookie → n ≠ .contentType → headers.values n = c.givenValues d n
  /-- The merged cookies, if there are any, stand in the place of what was given. -/
  cookies : ∀ text, (c.defaultCookies.merge d.cookies).header? = some text →
    ∃ v, HeaderValue.ofText? text = some v ∧ headers.values .cookie = [v]
  /-- Without cookies there is what was given. -/
  no_cookies : (c.defaultCookies.merge d.cookies).header? = none →
    headers.values .cookie = c.givenValues d .cookie
  /-- The media type goes by the body. -/
  contentType : d.body.WrittenAs c.codecs d.hints (c.givenValues d .contentType)
    (headers.values .contentType) body

/-! ### What the stages do -/

/-- The merging gives every name what the caller and the client give it. -/
theorem values_merged (c : Client σ) (d : Draft) (n : HeaderName) :
    (c.defaultHeaders.override d.headers).values n = c.givenValues d n :=
  HeaderMap.values_override ..

theorem withCookies_ok {headers result : HeaderMap} {cookies : Cookies}
    (h : withCookies headers cookies = .ok result) :
    (cookies.header? = none ∧ result = headers)
      ∨ ∃ text v, cookies.header? = some text ∧ HeaderValue.ofText? text = some v
        ∧ result = headers.insert .cookie v := by
  unfold withCookies at h
  cases htext : cookies.header? with
  | none =>
      rw [htext] at h
      exact .inl ⟨rfl, (Except.ok.inj h).symm⟩
  | some text =>
      rw [htext] at h
      dsimp only at h
      cases hvalue : HeaderValue.ofText? text with
      | none => rw [hvalue] at h; cases h
      | some v =>
          rw [hvalue] at h
          exact .inr ⟨text, v, rfl, hvalue, (Except.ok.inj h).symm⟩

theorem withMediaType_ok {headers result : HeaderMap} {mediaType : MediaType}
    (h : withMediaType headers mediaType = .ok result) :
    ∃ v, HeaderValue.ofText? mediaType.text = some v ∧ result = headers.insert .contentType v := by
  unfold withMediaType at h
  cases hvalue : HeaderValue.ofText? mediaType.text with
  | none => rw [hvalue] at h; cases h
  | some v =>
      rw [hvalue] at h
      exact ⟨v, rfl, (Except.ok.inj h).symm⟩

theorem withDefaultMediaType_ok {headers result : HeaderMap}
    (h : withDefaultMediaType headers = .ok result) :
    (∀ n, n ≠ .contentType → result.values n = headers.values n)
      ∧ result.values .contentType = bytesType (headers.values .contentType) := by
  unfold withDefaultMediaType at h
  by_cases hgiven : headers.values .contentType = []
  · rw [if_neg (by simpa using (headers.contains_eq_false_iff .contentType).2 hgiven)] at h
    obtain ⟨v, hvalue, rfl⟩ := withMediaType_ok h
    have hoctets : HeaderValue.ofText? MediaType.octetStream.text = some .octetStream := by
      decide +kernel
    refine ⟨fun n hn => HeaderMap.values_insert_of_ne hn .., ?_⟩
    rw [HeaderMap.values_insert_self, bytesType, if_pos hgiven,
      Option.some.inj (hvalue.symm.trans hoctets)]
  · rw [if_pos ((headers.contains_iff .contentType).2 hgiven)] at h
    obtain rfl := Except.ok.inj h
    exact ⟨fun _ _ => rfl, by rw [bytesType, if_neg hgiven]⟩

/-- Encoding the body changes the media type header and no other. -/
theorem encodeBody_ok {codecs : List Codec} {hints : Hints} {headers result : HeaderMap}
    {draftBody : DraftBody} {body : RequestBody}
    (h : encodeBody codecs hints headers draftBody = .ok (result, body)) :
    (∀ n, n ≠ .contentType → result.values n = headers.values n)
      ∧ draftBody.WrittenAs codecs hints (headers.values .contentType) (result.values .contentType)
        body := by
  cases draftBody with
  | empty =>
      obtain ⟨rfl, rfl⟩ := Prod.mk.inj (Except.ok.inj h)
      exact ⟨fun _ _ => rfl, rfl, rfl⟩
  | value value =>
      obtain ⟨json, hjson, h⟩ := exists_of_bind_eq_ok h
      obtain ⟨encoded, hencoded, h⟩ := exists_of_bind_eq_ok h
      obtain ⟨typed, htyped, h⟩ := exists_of_bind_eq_ok h
      obtain ⟨rfl, rfl⟩ := Prod.mk.inj (Except.ok.inj h)
      obtain ⟨v, hvalue, rfl⟩ := withMediaType_ok htyped
      exact ⟨fun n hn => HeaderMap.values_insert_of_ne hn .., json, encoded, v,
        mapError_eq_ok_iff.1 hjson, mapError_eq_ok_iff.1 hencoded, hvalue,
        HeaderMap.values_insert_self .., rfl⟩
  | bytes data =>
      obtain ⟨typed, htyped, h⟩ := exists_of_bind_eq_ok h
      obtain ⟨rfl, rfl⟩ := Prod.mk.inj (Except.ok.inj h)
      exact ⟨(withDefaultMediaType_ok htyped).1, (withDefaultMediaType_ok htyped).2, rfl⟩
  | stream source size =>
      obtain ⟨typed, htyped, h⟩ := exists_of_bind_eq_ok h
      obtain ⟨rfl, rfl⟩ := Prod.mk.inj (Except.ok.inj h)
      exact ⟨(withDefaultMediaType_ok htyped).1, (withDefaultMediaType_ok htyped).2, rfl⟩
  | multipart form =>
      obtain ⟨typed, htyped, h⟩ := exists_of_bind_eq_ok h
      obtain ⟨rfl, rfl⟩ := Prod.mk.inj (Except.ok.inj h)
      obtain ⟨v, hvalue, rfl⟩ := withMediaType_ok htyped
      have htext : form.mediaType.text =
          "multipart/form-data; boundary=" ++ form.boundary.text := by
        have hformData : MediaType.formData.essence ++ "; boundary=" =
            "multipart/form-data; boundary=" := by
          decide +kernel
        rw [← hformData, String.append_assoc]
        rfl
      exact ⟨fun n hn => HeaderMap.values_insert_of_ne hn .., v, htext ▸ hvalue,
        HeaderMap.values_insert_self .., rfl⟩

/-- A build that succeeds went through every stage. -/
theorem build_ok {c : Client σ} {d : Draft} {parts : RequestParts} {body : RequestBody}
    (h : (c.build d).1 = .ok (parts, body)) :
    ∃ headers, withCookies (c.defaultHeaders.override d.headers) (c.defaultCookies.merge d.cookies)
        = .ok headers
      ∧ encodeBody c.codecs d.hints headers d.body = .ok (parts.headers, body) := by
  unfold build at h
  split at h
  · cases h
  · dsimp only at h
    cases haddress : c.addressOf d.uri with
    | error e => rw [haddress] at h; cases h
    | ok url =>
        rw [haddress] at h
        dsimp only at h
        cases hcookies : withCookies (c.defaultHeaders.override d.headers)
            (c.defaultCookies.merge d.cookies) with
        | error e => rw [hcookies] at h; cases h
        | ok headers =>
            rw [hcookies] at h
            dsimp only at h
            cases hbody : encodeBody c.codecs d.hints headers d.body with
            | error e => rw [hbody] at h; cases h
            | ok encoded =>
                rw [hbody] at h
                obtain ⟨rfl, rfl⟩ := Prod.mk.inj (Except.ok.inj h)
                exact ⟨headers, rfl, hbody⟩

/-- **Headers compose.** In a request that was built, every name has the values of the draft or else
those of the client, but for the cookies, which are merged, and the media type, which goes by the
body. -/
theorem built_headers_compose (c : Client σ) (d : Draft) {parts : RequestParts} {body : RequestBody}
    (h : (c.build d).1 = .ok (parts, body)) : c.Composes d parts.headers body := by
  obtain ⟨headers, hcookies, hbody⟩ := build_ok h
  obtain ⟨hothers, htype⟩ := encodeBody_ok hbody
  -- The cookies leave everything else as it was merged, the media type included.
  have hmerged : ∀ n, n ≠ .cookie → headers.values n = c.givenValues d n := by
    intro n hn
    rw [← c.values_merged]
    rcases withCookies_ok hcookies with ⟨_, rfl⟩ | ⟨text, v, _, _, rfl⟩
    · rfl
    · exact HeaderMap.values_insert_of_ne hn ..
  have hcookie : headers.values .cookie = (parts.headers).values .cookie :=
    (hothers .cookie (by decide)).symm
  constructor
  · intro n hcookieName htypeName
    rw [hothers n htypeName, hmerged n hcookieName]
  · intro text htext
    rcases withCookies_ok hcookies with ⟨hnone, _⟩ | ⟨text', v, hsome, hvalue, rfl⟩
    · rw [htext] at hnone
      cases hnone
    · obtain rfl := Option.some.inj (htext.symm.trans hsome)
      exact ⟨v, hvalue, hcookie ▸ HeaderMap.values_insert_self ..⟩
  · intro hnone
    rcases withCookies_ok hcookies with ⟨_, rfl⟩ | ⟨text, v, hsome, _, _⟩
    · rw [← hcookie, c.values_merged]
    · rw [hnone] at hsome
      cases hsome
  · rw [← hmerged .contentType (by decide)]
    exact htype

/-- A client with default headers and a default cookie. -/
def furnished : Client Unit where
  transport := { name := "furnished", call := fun request => pure (request, .ok {}) }
  defaultHeaders := .ofLines [(.accept, ⟨Bytes.ofText "text/plain", by decide⟩),
    (.location, ⟨Bytes.ofText "here", by decide⟩), (.cookie, ⟨Bytes.ofText "k=0", by decide⟩)]
  defaultCookies := .ofList [("k", "1"), ("l", "2")]
  codecs := []

end Client

/-- A draft that sets a header of the furnished client twice, and a cookie of it. -/
def Draft.furnished : Draft where
  method := .post
  uri := .template "http://h" .none
  headers := .ofLines [(.accept, ⟨Bytes.ofText "text/html", by decide⟩),
    (.accept, ⟨Bytes.ofText "image/png", by decide⟩)]
  cookies := .ofList [("k", "3")]
  body := .bytes [0x2a]

/-- The headers of the furnished draft compose: its request is built. -/
theorem furnished_headers_compose :
    ∃ parts body, (Client.furnished.build .furnished).1 = .ok (parts, body)
      ∧ Client.furnished.Composes .furnished parts.headers body := by
  have hok : (Client.furnished.build .furnished).1.isOk = true := by decide +kernel
  cases hbuild : (Client.furnished.build .furnished).1 with
  | error e =>
      rw [hbuild] at hok
      cases hok
  | ok request =>
      exact ⟨request.1, request.2, rfl, Client.built_headers_compose .furnished .furnished hbuild⟩

end ApiClient
