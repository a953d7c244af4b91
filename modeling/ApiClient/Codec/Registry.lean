import ApiClient.Codec.Form
import ApiClient.Codec.Json
import ApiClient.Codec.Text

/-!
# ApiClient.Codec.Registry

The codecs that a client has by default.
-/

namespace ApiClient.Codec

/-- Texts, then forms, then JSON. -/
def defaults (boundary : Boundary) : List Codec := [text, form boundary, json]

end ApiClient.Codec
