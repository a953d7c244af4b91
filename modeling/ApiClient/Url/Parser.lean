import ApiClient.Url.Path

/-!
# ApiClient.Url.Parser

Reading URLs.

Design points:

* White space and controls at the ends and line breaks and tabs anywhere are dropped first; the rest
  is cut into components from left to right, and each component is encoded with its own class of
  bytes.
* In a scheme with rules for hosts a backslash counts as a slash, any number of slashes introduces
  the host, and the host may not be empty.
* The scheme of files has rules of its own: a host is optional, has no port and no user, and gives
  way to a drive; `localhost` is no host.
-/

namespace ApiClient.Url

/-! ## Authorities -/

/-- Splits a text at its last `@`: what stands before it, if there is one, and what follows. -/
def splitUser (s : List Char) : Option (List Char) × List Char :=
  if s.contains '@' then
    let host := (s.reverse.takeWhile (· != '@')).reverse
    (some (s.take (s.length - host.length - 1)), host)
  else (none, s)

/-- The user name and the password of user information. -/
def readUser (s : List Char) : String × Option String :=
  let (name, rest) := s.span (· != ':')
  let password := rest.drop 1
  (encodeChars keepsInUser name,
   if password.isEmpty then none else some (encodeChars keepsInUser password))

/-- Splits host and port at the first colon outside brackets. -/
def splitPort : Bool → List Char → List Char × Option (List Char)
  | _, [] => ([], none)
  | inside, c :: rest =>
    if c == ':' && !inside then ([], some rest)
    else
      let inside := if c == '[' then true else if c == ']' then false else inside
      let (host, port) := splitPort inside rest
      (c :: host, port)

/-- The port of a text of digits; no digits and the scheme's own port stand for no port. -/
def readPort (scheme : String) (s : List Char) : Except UrlError (Option Nat) :=
  if !s.all Char.isDigit then .error .invalidPort
  else if s.isEmpty then .ok none
  else
    let n := s.foldl (fun n c => 10 * n + (c.toNat - 48)) 0
    if n > 65535 then .error .invalidPort
    else .ok (if defaultPort? scheme == some n then none else some n)

/-- The host that stands for none. -/
def noHost : Host := .domain ""

/-- The path behind an authority. It is empty only in a scheme without rules for hosts. -/
def pathBehind (scheme : String) (path : List Char) : String :=
  match path with
  | [] => if isSpecialScheme scheme then "/" else ""
  | c :: rest => readPath scheme (if isSlash (isSpecialScheme scheme) c then rest else path)

/-- Reads a URL behind its `scheme://`, in a scheme other than that of files. A backslash ends a
port in every scheme. -/
def readAuthority (scheme : String) (s : List Char) : Except UrlError Url := do
  let special := isSpecialScheme scheme
  let tail := Tail.ofChars s
  let (authority, path) := tail.path.span (!isSlash special ·)
  let (user, hostPort) := splitUser authority
  let (username, password) := (user.map readUser).getD ("", none)
  let (hostText, portText) := splitPort false hostPort
  let (portText, rest) := (portText.getD []).span (· != '\x5c')
  if hostText.isEmpty then
    if special || !hostPort.isEmpty || username != "" || password.isSome then throw .emptyHost
    if user.isSome && !{ tail with path }.isEmpty then throw .emptyHost
  let host ← if special then Host.parse hostText else Host.parseUnruled hostText
  let port ← readPort scheme portText
  let url : Url := {
    scheme, username, password, port
    host := some host
    isFlat := false
    path := pathBehind scheme (rest ++ path)
    query := none, fragment := none }
  .ok (url.withTail tail)

/-! ## Files -/

/-- A file's URL. -/
def fileUrl (host : Host) (segments : List String) : Url where
  scheme := "file"
  username := ""
  password := none
  host := some host
  port := none
  isFlat := false
  path := pathText "file" segments
  query := none
  fragment := none

/-- Reads a file's path with a host in front of it. What looks like a host and names a drive is the
start of the path; a path that starts with a drive drops the host. -/
def readFileHost (s : List Char) : Except UrlError Url := do
  let name := s.takeWhile (!isSlash true ·)
  if name.isEmpty || isDrive name then return fileUrl noHost (readSegments "file" [] s)
  let host ← Host.parse name
  let path := s.drop name.length
  if host == .domain "localhost" then return fileUrl noHost (readSegments "file" [] path)
  let segments := readSegments "file" [] (path.drop 1)
  let startsAtDrive := (segments.head?.map fun s => isDrive s.toList).getD false
  return fileUrl (if startsAtDrive then noHost else host) segments

/-- What a file's path that starts with a slash takes from a base: its drive, or else its host. -/
def fileRoot (base : Option Url) (path : List Char) : Host × List String :=
  match base with
  | none => (noHost, [])
  | some base =>
    let first := base.segments.headD ""
    if startsWithDrive path then (noHost, [])
    else if isNormalDrive first then (noHost, [first])
    else (base.host.getD noHost, [])

/-- Reads a file's URL behind its colon. The base is a file's URL, too. -/
def readFile (base : Option Url) (s : List Char) : Except UrlError Url := do
  let tail := Tail.ofChars s
  let url ← match tail.path, base with
    | a :: rest, base =>
      if isSlash true a then
        if rest.head?.any (isSlash true) then readFileHost (rest.drop 1)
        else
          let (host, done) := fileRoot base (s.drop 1)
          .ok (fileUrl host (readSegments "file" done rest))
      else match base with
        | some base =>
          if startsWithDrive s then .ok (fileUrl noHost (readSegments "file" [] tail.path))
          else .ok (fileUrl (base.host.getD noHost) (readSegments "file" base.directory tail.path))
        | none => .ok (fileUrl noHost (readSegments "file" [] tail.path))
    | [], some base => .ok { base with query := none }
    | [], none => .ok (fileUrl noHost [])
  let url := url.withTail tail
  let query := if tail.path.isEmpty && tail.query.isNone then base.bind (·.query) else url.query
  .ok { url with query }

/-! ## URLs -/

/-- Reads a URL without a host, behind its colon. -/
def readWithoutHost (scheme : String) (s : List Char) : Url :=
  let tail := Tail.ofChars s
  let rooted := tail.path.head? == some '/'
  let url : Url := {
    scheme
    username := "", password := none, host := none, port := none
    isFlat := !rooted
    path := if rooted then readPath scheme (tail.path.drop 1)
      else encodeChars keepsInFlatPath tail.path
    query := none, fragment := none }
  url.withTail tail

/-- Reads a URL behind its scheme and its colon. -/
def readBehindScheme (scheme : String) (rest : List Char) : Except UrlError Url :=
  if scheme == "file" then readFile none rest
  else if isSpecialScheme scheme then readAuthority scheme (rest.dropWhile (isSlash true))
  else match rest with
    | '/' :: '/' :: tail => readAuthority scheme tail
    | _ => .ok (readWithoutHost scheme rest)

/-- Reads an absolute URL. -/
def parse (s : String) : Except UrlError Url :=
  match splitUrlScheme (clean s) with
  | none => .error .relativeWithoutBase
  | some (scheme, rest) => readBehindScheme scheme rest

end ApiClient.Url
