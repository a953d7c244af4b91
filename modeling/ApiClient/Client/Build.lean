import ApiClient.Client.Basic

/-!
# ApiClient.Client.Build

Building a request from a draft.

Design points:

* A build goes through stages: the mark of an invalid header, the address, headers and cookies, the
  body. Each stage takes from the draft what it uses, so a build that fails leaves the later parts
  in it.
* A header of the draft replaces all default values of its name; cookies are merged name by name.
* The media type of a structured body or a form is the one it was encoded with. Other bodies keep
  the media type of the headers, or else are byte strings.
-/

namespace ApiClient

variable {σ : Type}

/-- A request that can be sent. -/
abbrev Prepared := RequestParts × RequestBody

namespace Client

/-- The target that a draft names. -/
def target : DraftUri → Except AddressError String
  | .unset => .ok ""
  | .template template bindings => Address.expand template bindings
  | .url url => .ok url.text

/-- The address of a draft's request. -/
def addressOf (c : Client σ) (uri : DraftUri) : Except AddressError Uri := do
  Address.resolve c.baseUrl (← target uri)

/-- Headers with those of a set of cookies. -/
def withCookies (headers : HeaderMap) (cookies : Cookies) : Except ClientError HeaderMap :=
  match cookies.header? with
  | none => .ok headers
  | some text =>
    match HeaderValue.ofText? text with
    | some value => .ok (headers.insert .cookie value)
    | none => .error .invalidHeader

/-- Headers with the given media type. -/
def withMediaType (headers : HeaderMap) (mediaType : MediaType) : Except ClientError HeaderMap :=
  match HeaderValue.ofText? mediaType.text with
  | some value => .ok (headers.insert .contentType value)
  | none => .error .invalidHeader

/-- Headers with the media type of byte strings, if they have none. -/
def withDefaultMediaType (headers : HeaderMap) : Except ClientError HeaderMap :=
  if headers.contains .contentType then .ok headers else withMediaType headers .octetStream

/-- Headers and body for what a draft says about the body. -/
def encodeBody (codecs : List Codec) (hints : Hints) (headers : HeaderMap) :
    DraftBody → Except ClientError (HeaderMap × RequestBody)
  | .empty => .ok (headers, .empty)
  | .value value => do
    let value ← value.mapError ClientError.ofJson
    let declared := Reply.mediaTypeOf headers
    let encoded ← (Codec.writeBody codecs value declared hints).mapError ClientError.ofCodec
    .ok (← withMediaType headers encoded.mediaType, .ofBytes encoded.bytes)
  | .bytes data => do .ok (← withDefaultMediaType headers, .ofBytes data)
  | .stream source size => do .ok (← withDefaultMediaType headers, .stream source size)
  | .multipart form => do .ok (← withMediaType headers form.mediaType, form.toBody)

/-- The request of a draft with the given address, headers and body. -/
def partsOf (d : Draft) (url : Uri) (headers : HeaderMap) : RequestParts :=
  { url, headers, method := d.method, version := d.version, extensions := d.extensions,
    appendedUserAgent := d.appendedUserAgent }

/-- Builds the request of a draft, and tells what is left of the draft. -/
def build (c : Client σ) (d : Draft) : Except ClientError Prepared × Draft :=
  if d.hasInvalidHeader then (.error .invalidHeader, { d with hasInvalidHeader := false })
  else
    let left := { d with uri := .unset }
    match c.addressOf d.uri with
    | .error e => (.error (.ofAddress e), left)
    | .ok url =>
      let left := { left with headers := ∅, cookies := ∅ }
      match withCookies (c.defaultHeaders.override d.headers)
        (c.defaultCookies.merge d.cookies) with
      | .error e => (.error e, left)
      | .ok headers =>
        let left := { left with body := .empty }
        match encodeBody c.codecs d.hints headers d.body with
        | .error e => (.error e, left)
        | .ok (headers, body) =>
          (.ok (partsOf d url headers, body), { left with extensions := {} })

end Client

end ApiClient
