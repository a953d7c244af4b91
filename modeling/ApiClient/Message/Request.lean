import ApiClient.Body.Request
import ApiClient.Http.Header
import ApiClient.Http.Method
import ApiClient.Message.Extensions

/-!
# ApiClient.Message.Request

Requests as transports get them.

Design points:

* The name of this software ends with the version of the compiler that built it. That version is a
  setting of the build (`Build`), so nothing here depends on which one it is.
-/

namespace ApiClient

/-- The settings with which the software is built. -/
class Build where
  /-- The version of the compiler. -/
  compiler : String
  /-- It is a text of visible ASCII. -/
  compiler_visible : (Bytes.ofText compiler).all Ascii.isVisible = true

/-- A request without its body. -/
structure RequestParts where
  /-- The address. -/
  url : Uri := .root
  /-- The method. -/
  method : Method := .get
  /-- The protocol version. -/
  version : Version := .http11
  /-- The headers. -/
  headers : HeaderMap := ∅
  /-- The settings that travel with the request. -/
  extensions : Extensions := {}
  /-- What is put behind the name of the sending software. -/
  appendedUserAgent : String := ""
deriving DecidableEq, Inhabited

namespace RequestParts

/-- The name of this software in front of the version of its compiler. -/
def softwareName : String := "Resty/resty-http-0.1.0/rust-"

/-- The name of this software. -/
def baseUserAgent [Build] : String := softwareName ++ Build.compiler

/-- The name of the sending software. -/
def userAgent [Build] (p : RequestParts) : String := baseUserAgent ++ p.appendedUserAgent

/-- Puts a text behind the name of the sending software. -/
def appendUserAgent (p : RequestParts) (text : String) : RequestParts :=
  { p with appendedUserAgent := p.appendedUserAgent ++ text }

/-- Makes `value` the only value of a header. -/
def setHeader (p : RequestParts) (name : HeaderName) (value : HeaderValue) : RequestParts :=
  { p with headers := p.headers.insert name value }

end RequestParts

/-- A request. -/
structure Request where
  /-- The request without its body. -/
  parts : RequestParts := {}
  /-- The body. -/
  body : RequestBody := .empty
deriving Inhabited

end ApiClient
