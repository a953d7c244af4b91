import ApiClient.Client.Retrieve
import ApiClient.Engine.Network
import ApiClient.Message.Response
import ApiClient.Report.Error

/-!
# ApiClient.Report.Message

Views of requests and responses.

Design points:

* The view of a response holds what reading the rest of its body gives.
* A setting is shown only if it is set.
-/

namespace ApiClient.Report

/-- The parts of an address. -/
def uriFields (u : Uri) : Json.Fields :=
  [("scheme", report u.scheme), ("authority", report u.authority), ("host", report u.host?),
   ("port", report u.port?), ("path", report u.path), ("query", report u.query)]

/-- The settings of a request other than its time limit. -/
def settings (e : Extensions) : Json :=
  .object <| field? "connect_timeout" e.connectTimeout
    ++ field? "low_speed_timeout" (e.lowSpeedTimeout.map fun (bytes, time) => [bytes, time])
    ++ field? "redirect_policy" (e.redirectPolicy.map RedirectPolicy.debug)
    ++ field? "automatic_decompression" e.decompression
    ++ when e.tcpNodelay [("tcp_nodelay", report "TcpNodelayRequestExtension")]
    ++ field? "proxy" e.proxy
    ++ field? "title_case_headers" e.titleCaseHeaders

/-- What is known of a request body without reading it. -/
def requestBodyFields (b : RequestBody) : Json.Fields :=
  [("size", report b.size?), ("is_empty", report b.isEmpty), ("as_bytes", report b.data?),
   ("debug", report b.debug)]

/-- What is known of a response body without reading it. -/
def responseBodyFields (b : ResponseBody) : Json.Fields :=
  [("is_buffered", report b.isBuffered), ("as_bytes", report b.data?), ("debug", report b.debug)]

/-- The fields of a request without its body. -/
def partsFields [Build] (p : RequestParts) : Json.Fields :=
  [("method", report p.method.text), ("url", report p.url), ("version", report p.version.text),
   ("headers", report p.headers), ("user_agent", report p.userAgent),
   ("appended_user_agent", report p.appendedUserAgent)]
  ++ field? "timeout_ms" p.extensions.timeout

/-- A response, with a view of errors that reading its body gives. -/
def response (e : IoError → Json) (r : Response) : Json :=
  .object <| [("status", report r.status.code), ("version", report r.version.text),
    ("headers", report r.headers), ("body", report (r.body.readAll.1.mapError e))]
  ++ field? "timeout_ms" r.extensions.timeout

instance : Reportable Cookies := ⟨fun c => report (c.toList.map fun p => [p.1, p.2])⟩
instance : Reportable LogRecord := ⟨fun l => .string s!"{l.level.text} {l.text}"⟩
instance [Build] : Reportable RequestParts := ⟨fun p => .object (partsFields p)⟩
instance : Reportable Response := ⟨response report⟩
instance {β : Type} [Reportable β] : Reportable (Entity β) := ⟨fun e =>
  .object
    [("status", report e.status.code), ("headers", report e.headers), ("body", report e.body)]⟩
instance : Reportable WireRequest := ⟨fun r =>
  let lines := r.headers.filter (·.1.toLower != "host")
  .object [("line", report r.line), ("body", report r.body),
    ("headers", report ((lines.mergeSort fun a b => a.1.toLower ≤ b.1.toLower).map fun l =>
      [report l.1, report l.2]))]⟩

end ApiClient.Report
