import ApiClient.Body.Source
import ApiClient.Http.Header
import ApiClient.Url.Host

/-!
# ApiClient.Error.Engine

What goes wrong below a transport: in the address, on the way to the server, in its answer, or in
the body that is sent to it.
-/

namespace ApiClient

/-- Why the first line of an answer is not understood. -/
inductive StatusLineFault where
  /-- The line is not made of a version, a code and a reason. -/
  | wrongTokens
  /-- The line has bytes outside ASCII. -/
  | notAscii
  /-- The code is no number. -/
  | notANumber (code : String)
deriving Repr, DecidableEq

/-- The text of the fault. -/
def StatusLineFault.message : StatusLineFault → String
  | .wrongTokens => "Wrong number of tokens in status line"
  | .notAscii => "Status line not ASCII"
  | .notANumber code => s!"unable to parse status as u16 ({code})"

/-- What went wrong below a transport. -/
inductive EngineFault where
  /-- The address is no absolute URL. -/
  | invalidUrl (e : UrlError)
  /-- The address has a scheme that is not spoken. -/
  | unknownScheme (url scheme : String)
  /-- The address has a scheme for which the client is not made. -/
  | schemeNotAllowed (url : String)
  /-- The address is not encrypted, but has to be. -/
  | insecure (url : String)
  /-- The host has no network address. -/
  | noAddress (url host : String)
  /-- Nothing listens at the network address. -/
  | unreachable (url : String)
  /-- The address of the proxy is ill-formed. -/
  | malformedProxy
  /-- The proxy does not let the request through. -/
  | proxyRefused (url : String)
  /-- Too many redirections followed each other. -/
  | tooManyRedirects (url : String)
  /-- A redirected request cannot be sent again, because its body is gone. -/
  | bodyNotRepeatable (url : String)
  /-- The first line of the answer is not understood. -/
  | badStatusLine (fault : StatusLineFault)
  /-- A header line is not understood. -/
  | badHeaderLine (line : String)
  /-- The answer has more header lines than may be. -/
  | tooManyHeaders (limit : Nat)
  /-- The answer is not one of the protocol. -/
  | badAnswer (url : String)
  /-- The body of the answer is not encoded as it says. -/
  | badContentCoding (url : String)
  /-- The answer stops, or cannot be taken, in front of the first byte of its body. -/
  | brokenOff (url : String)
  /-- The time for the call is over. -/
  | timeout (url : String)
  /-- Reading or writing failed. -/
  | network (url : Option String) (e : IoError)
  /-- The body of the request failed while it was sent. -/
  | requestBody (e : IoError)
  /-- The body of the request ends before the length that was announced. -/
  | shortRequestBody (url : String)
deriving DecidableEq

namespace EngineFault

/-- The name of an address error in front of its text. -/
def urlErrorName : UrlError → String
  | .relativeWithoutBase => "RelativeUrlWithoutBase"
  | .relativeWithFlatBase => "RelativeUrlWithCannotBeABaseBase"
  | .emptyHost => "EmptyHost"
  | .invalidPort => "InvalidPort"
  | .invalidIpv4 => "InvalidIpv4Address"
  | .invalidIpv6 => "InvalidIpv6Address"
  | .invalidDomain => "IdnaError"
  | .invalidHostChar => "InvalidDomainCharacter"

/-- The text of the fault. -/
def message : EngineFault → String
  | invalidUrl e => s!"Bad URL: failed to parse URL: {urlErrorName e}: {e.message}"
  | unknownScheme url scheme => s!"{url}: Unknown Scheme: unknown scheme " ++ "'" ++ scheme ++ "'"
  | schemeNotAllowed url => s!"builder error for url ({url}): URL scheme is not allowed"
  | insecure url =>
    url ++ ": Insecure request attempted with https_only set: "
      ++ "can't perform non https request with https_only set"
  | noAddress url host => s!"{url}: Dns Failed: No ip address for {host}"
  | unreachable url =>
    s!"{url}: Connection Failed: Connect error: Connection refused (os error 111)"
  | malformedProxy => "Malformed proxy"
  | proxyRefused url => s!"{url}: Proxy failed to connect"
  | tooManyRedirects url => s!"{url}: Too Many Redirects: reached max redirects"
  | bodyNotRepeatable url => s!"{url}: request body could not be rewound"
  | badStatusLine fault => s!"Bad Status: {fault.message}"
  | badHeaderLine line => "Bad Header: invalid header " ++ "'" ++ line ++ "'"
  | tooManyHeaders limit => s!"Bad Header: more than {limit} header fields in response"
  | badAnswer url => s!"{url}: the answer violates the protocol"
  | badContentCoding url => s!"{url}: the body is not encoded as announced"
  | brokenOff url => s!"{url}: the answer breaks off in front of its body"
  | timeout url => s!"{url}: request or operation took longer than the configured timeout time"
  | network none e => s!"Network Error: {e.message}"
  | network (some url) e => s!"{url}: Network Error: {e.message}"
  | requestBody e => e.message
  | shortRequestBody url => s!"{url}: the request body is shorter than announced"

/-- The fault with the address at which it came up, if it does not name one. -/
def located (url : String) : EngineFault → EngineFault
  | network none e => network (some url) e
  | fault => fault

/-- The texts of the errors behind the fault, nearest first. -/
def sources : EngineFault → List String
  | invalidUrl e => [e.message]
  | network _ e => [e.message]
  | schemeNotAllowed _ => ["URL scheme is not allowed"]
  | _ => []

end EngineFault

end ApiClient
