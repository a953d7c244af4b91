import ApiClient.Error.Client
import ApiClient.Report.Basic

/-!
# ApiClient.Report.Error

Views of headers, addresses and errors.

Design points:

* Header lines are sorted by name; the values of one name keep their order.
* An error shows its kind, its text, and the texts of the errors behind it. The name of a cause says
  which type of value a caller finds behind an error.
-/

namespace ApiClient

namespace Report

/-- An error with its name and its text. -/
def failure (name message : String) : Json :=
  .object [("error", .string name), ("message", .string message)]

instance : Reportable Uri := ⟨fun u => .string u.text⟩
instance : Reportable HeaderValue := ⟨fun v => report v.bytes⟩
instance : Reportable HeaderMap := ⟨fun m =>
  .array <| (m.lines.mergeSort fun a b => a.1.text ≤ b.1.text).map fun l =>
    .array [report l.1.text, report l.2]⟩
instance : Reportable IoError := ⟨fun e => failure s!"Io({e.kind.text})" e.message⟩
instance : Reportable AddressError := ⟨fun e => failure e.name e.message⟩
instance : Reportable CodecError := ⟨fun e =>
  .object [("error", report e.name), ("message", report e.message), ("chain", report e.sources)]⟩
instance : Reportable TransportError := ⟨fun e =>
  .object [("error", report e.kind.text), ("message", report e.text), ("uri", report e.uri),
    ("chain", report e.chain)]⟩

end Report

/-- The name of the type of a cause. -/
def Cause.name : Cause → String
  | codec e => "CodecError::" ++ e.name
  | address e => "UriExpansionError::" ++ e.name
  | transport kind _ _ => "HttpError::" ++ kind.text
  | io _ => "IoError"
  | json _ => "JsonError"
  | custom name _ => name
  | message _ | invalidHeaderValue | engine _ => "message"

namespace Report

/-- The fields of the answer behind an error. -/
def reportFields (kind : ClientErrorKind) (r : StatusReport) : Json.Fields :=
  [("status", report r.status.code), ("kind_status", report (kind.status?.map Status.code)),
   ("status_text", report r.status.text), ("headers", report r.headers), ("body", report r.body),
   ("body_text", report (Utf8.decodeLossy r.body))]

/-- The fields of an error of a client's call. -/
def errorFields (e : ClientError) : Json.Fields :=
  [("error", report e.kind.text), ("message", report e.message), ("display", report e.text),
   ("cause", report e.cause.name), ("chain", report e.chain)]
  ++ (e.report.map (reportFields e.kind)).getD []

instance : Reportable ClientError := ⟨fun e => .object (errorFields e)⟩

end Report

end ApiClient
