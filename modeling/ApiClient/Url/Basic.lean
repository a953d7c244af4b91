import ApiClient.Url.Host

/-!
# ApiClient.Url.Basic

URLs: absolute addresses in normal form.

Design points:

* A URL is its components. The text is made from them, so equal components give equal texts.
* The components are already encoded; nothing is encoded when the text is made.
-/

namespace ApiClient

/-- An absolute address. -/
structure Url where
  /-- The scheme, in lower case. -/
  scheme : String
  /-- The user name, empty if there is none. -/
  username : String
  /-- The password. -/
  password : Option String
  /-- The host. -/
  host : Option Host
  /-- The port, if it is not the scheme's own. -/
  port : Option Nat
  /-- Whether the path has no structure, as in an address without slashes. -/
  isFlat : Bool
  /-- The path. -/
  path : String
  /-- The query. -/
  query : Option String
  /-- The fragment. -/
  fragment : Option String
deriving Repr, DecidableEq

namespace Url

/-- The port that a scheme uses by itself. -/
def defaultPort? (scheme : String) : Option Nat :=
  [("http", 80), ("https", 443), ("ws", 80), ("wss", 443), ("ftp", 21)].lookup scheme

/-- Whether the scheme has rules for hosts and for empty paths. -/
def isSpecialScheme (scheme : String) : Bool := scheme == "file" || (defaultPort? scheme).isSome

/-- The user information in front of a host. -/
def userText (u : Url) : String :=
  if u.username == "" && u.password.isNone then ""
  else u.username ++ (u.password.map (":" ++ ·)).getD "" ++ "@"

/-- The part of the text between the scheme and the path. -/
def authorityText (u : Url) : String :=
  match u.host with
  | some h => "//" ++ u.userText ++ h.text ++ (u.port.map fun p => s!":{p}").getD ""
  | none => if !u.isFlat && u.path.startsWith "//" then "/." else ""

/-- The text of a URL. -/
def text (u : Url) : String :=
  u.scheme ++ ":" ++ u.authorityText ++ u.path ++ (u.query.map ("?" ++ ·)).getD ""
    ++ (u.fragment.map ("#" ++ ·)).getD ""

/-- An optional value in diagnostics. -/
def debugOption {α : Type} (debug : α → String) : Option α → String
  | none => "None"
  | some a => s!"Some({debug a})"

/-- The URL in diagnostics. An empty host counts as none there. -/
def debug (u : Url) : String :=
  "Url \x7b scheme: " ++ Quoted.text u.scheme
    ++ ", cannot_be_a_base: " ++ toString u.isFlat
    ++ ", username: " ++ Quoted.text u.username
    ++ ", password: " ++ debugOption Quoted.text u.password
    ++ ", host: " ++ debugOption Host.debug (u.host.filter (· != .domain ""))
    ++ ", port: " ++ debugOption toString u.port
    ++ ", path: " ++ Quoted.text u.path
    ++ ", query: " ++ debugOption Quoted.text u.query
    ++ ", fragment: " ++ debugOption Quoted.text u.fragment ++ " \x7d"

end Url

end ApiClient
