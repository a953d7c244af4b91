import ApiClient.Address.Resolve
import ApiClient.Codec.Basic
import ApiClient.Cookie
import ApiClient.Form.Multipart
import ApiClient.Http.Date
import ApiClient.Message.Request

/-!
# ApiClient.Client.Draft

Requests in the making.

Design points:

* A draft holds what the caller said; nothing is expanded, resolved or encoded before the request is
  built.
* Setting a header to a text that is no header value only marks the draft. The mark stays until a
  build reports it, whatever is set afterwards.
-/

namespace ApiClient

/-- What a draft says about the address. -/
inductive DraftUri where
  /-- Nothing. -/
  | unset
  /-- A template with its values. -/
  | template (template : String) (bindings : Variables)
  /-- An absolute address. -/
  | url (url : Url)

/-- What a draft says about the body. -/
inductive DraftBody where
  /-- There is none. -/
  | empty
  /-- A structured value, or why the caller's value has no JSON form. -/
  | value (value : Except Json.Error Json)
  /-- Bytes. -/
  | bytes (data : Bytes)
  /-- A stream with its declared size. -/
  | stream (source : Stream) (size : Option Nat)
  /-- A form in parts. -/
  | multipart (form : Multipart)

/-- A request in the making. -/
structure Draft where
  /-- The method. -/
  method : Method
  /-- The address. -/
  uri : DraftUri := .unset
  /-- The protocol version. -/
  version : Version := .http11
  /-- The headers. -/
  headers : HeaderMap := ∅
  /-- The cookies. -/
  cookies : Cookies := ∅
  /-- The settings that travel with the request. -/
  extensions : Extensions := {}
  /-- What codecs are told. -/
  hints : Hints := {}
  /-- The body. -/
  body : DraftBody := .empty
  /-- What is put behind the name of the sending software. -/
  appendedUserAgent : String := ""
  /-- Whether a header was set to a text that is no header value. -/
  hasInvalidHeader : Bool := false

namespace Draft

/-- Sets the address to a template. -/
def setTemplate (d : Draft) (template : String) (bindings : Variables) : Draft :=
  { d with uri := .template template bindings }

/-- Sets the address to a URL, which is used as it is. -/
def setUrl (d : Draft) (url : Url) : Draft := { d with uri := .url url }

/-- Adds a header line. -/
def addHeader (d : Draft) (name : HeaderName) (value : HeaderValue) : Draft :=
  { d with headers := d.headers.append name value }

/-- Changes the headers. -/
def editHeaders (d : Draft) (change : HeaderMap → HeaderMap) : Draft :=
  { d with headers := change d.headers }

/-- Makes a text the only value of a header. A text that is no header value marks the draft. -/
def setHeader (d : Draft) (name : HeaderName) (text : String) : Draft :=
  match HeaderValue.ofText? text with
  | some value => { d with headers := d.headers.insert name value }
  | none => { d with hasInvalidHeader := true }

/-- Sets the accepted media types. -/
def accept (d : Draft) (mediaTypes : List MediaType) : Draft :=
  d.setHeader .accept (", ".intercalate (mediaTypes.map MediaType.text))

/-- Sets the accepted character sets. -/
def acceptCharset (d : Draft) (charsets : List String) : Draft :=
  d.setHeader .acceptCharset (", ".intercalate charsets)

/-- Sets the media type of the body. -/
def setContentType (d : Draft) (mediaType : MediaType) : Draft :=
  d.setHeader .contentType mediaType.text

/-- Sets the tags of which the resource must have none. -/
def ifNoneMatch (d : Draft) (tags : List String) : Draft :=
  d.setHeader .ifNoneMatch (", ".intercalate tags)

/-- Sets the date after which the resource must have changed, in seconds since 1970. -/
def ifModifiedSince (d : Draft) (seconds : Int) : Draft :=
  d.setHeader .ifModifiedSince (Date.text seconds)

/-- Adds a cookie. -/
def addCookie (d : Draft) (name value : String) : Draft :=
  { d with cookies := d.cookies.add name value }

/-- Changes the cookies. -/
def editCookies (d : Draft) (change : Cookies → Cookies) : Draft :=
  { d with cookies := change d.cookies }

/-- Sets the view on JSON objects. -/
def setView (d : Draft) (view : JsonView) : Draft :=
  { d with hints := { d.hints with view := some view } }

/-- Sets the body to a structured value, or to why the caller's value has no JSON form. -/
def setValue (d : Draft) (value : Except Json.Error Json) : Draft := { d with body := .value value }

/-- Sets the body to a text. -/
def setText (d : Draft) (text : String) : Draft := d.setValue (.ok (.string text))

/-- Sets the body to bytes. -/
def setBytes (d : Draft) (data : Bytes) : Draft := { d with body := .bytes data }

/-- Sets the body to a stream. -/
def setStream (d : Draft) (source : Stream) (size : Option Nat) : Draft :=
  { d with body := .stream source size }

/-- Sets the body to a form in parts. -/
def setMultipart (d : Draft) (form : Multipart) : Draft := { d with body := .multipart form }

end Draft

end ApiClient
