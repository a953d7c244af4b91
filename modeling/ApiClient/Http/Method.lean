import ApiClient.Text.Bytes

/-!
# ApiClient.Http.Method

Request methods and protocol versions.
-/

namespace ApiClient

/-- A byte that may stand in a method. -/
def Method.isByte (b : UInt8) : Bool :=
  Ascii.isAlphanumeric b || (Bytes.ofText "!*+-.^_\x60|~").contains b

/-- A request method. Its case is significant. -/
structure Method where
  /-- The method as it is sent. -/
  text : String
  /-- A method is not empty and holds token bytes only. -/
  valid : text ≠ "" ∧ (Bytes.ofText text).all Method.isByte = true
deriving DecidableEq

namespace Method

/-- The method of a text, if it is one. -/
def ofText? (s : String) : Option Method :=
  if h : s ≠ "" ∧ (Bytes.ofText s).all isByte = true then some ⟨s, h⟩ else none

/-- The method GET. -/
def get : Method := ⟨"GET", by decide⟩
/-- The method HEAD. -/
def head : Method := ⟨"HEAD", by decide⟩
/-- The method POST. -/
def post : Method := ⟨"POST", by decide⟩
/-- The method PUT. -/
def put : Method := ⟨"PUT", by decide⟩
/-- The method PATCH. -/
def patch : Method := ⟨"PATCH", by decide⟩
/-- The method DELETE. -/
def delete : Method := ⟨"DELETE", by decide⟩
/-- The method OPTIONS. -/
def options : Method := ⟨"OPTIONS", by decide⟩

instance : Inhabited Method := ⟨get⟩

end Method

/-- A protocol version. -/
inductive Version where
  /-- HTTP/0.9. -/
  | http09
  /-- HTTP/1.0. -/
  | http10
  /-- HTTP/1.1. -/
  | http11
  /-- HTTP/2.0. -/
  | http2
  /-- HTTP/3.0. -/
  | http3
deriving Repr, DecidableEq, Inhabited

namespace Version

/-- The version as a status line shows it. -/
def text : Version → String
  | http09 => "HTTP/0.9"
  | http10 => "HTTP/1.0"
  | http11 => "HTTP/1.1"
  | http2 => "HTTP/2.0"
  | http3 => "HTTP/3.0"

/-- The version that a text names. -/
def ofText? (s : String) : Option Version :=
  [http09, http10, http11, http2, http3].find? (·.text == s)

end Version

end ApiClient
