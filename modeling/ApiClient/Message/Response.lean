import ApiClient.Body.Response
import ApiClient.Http.Header
import ApiClient.Http.Method
import ApiClient.Http.Status
import ApiClient.Message.Extensions

/-!
# ApiClient.Message.Response

Responses as transports give them.
-/

namespace ApiClient

/-- A response. -/
structure Response where
  /-- The status. -/
  status : Status := .success
  /-- The protocol version. -/
  version : Version := .http11
  /-- The headers. -/
  headers : HeaderMap := ∅
  /-- The settings that came with the request. -/
  extensions : Extensions := {}
  /-- The body. -/
  body : ResponseBody := .ofBytes []
deriving Inhabited

/-- Makes `value` the only value of a header. -/
def Response.setHeader (r : Response) (name : HeaderName) (value : HeaderValue) : Response :=
  { r with headers := r.headers.insert name value }

end ApiClient
