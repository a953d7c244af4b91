import ApiClient.Text.Bytes
import ApiClient.Text.Percent

/-!
# ApiClient.Http.Uri

Request targets: the address that a request carries.

Design points:

* A target has one of three forms: absolute (`scheme://authority/path?query`), a path with an
  optional query, or an authority alone. The asterisk is a path.
* Reading checks every byte against the class of its component and drops a fragment. Nothing is
  decoded or normalised, except that the two web schemes are lower-cased.
-/

namespace ApiClient

/-- The address that a request carries. -/
structure Uri where
  /-- The scheme. -/
  scheme : Option String
  /-- The authority: user information, host and port as they were written. -/
  authority : Option String
  /-- The path as it was written. -/
  rawPath : String
  /-- The query. -/
  query : Option String
deriving Repr, DecidableEq

/-- Why a text is no request target. -/
inductive UriError where
  /-- A byte outside the class of its component. -/
  | invalidChar
  /-- Unmatched brackets, too many colons, an escape in the host, or nothing behind the user. -/
  | invalidAuthority
  /-- Neither a path, nor an authority, nor an absolute address. -/
  | invalidFormat
  /-- A scheme of more than 64 bytes. -/
  | schemeTooLong
  /-- No bytes at all. -/
  | empty
  /-- More than 65534 bytes. -/
  | tooLong
deriving Repr, DecidableEq

/-- The text of the error. -/
def UriError.message : UriError → String
  | .invalidChar => "invalid uri character"
  | .invalidAuthority => "invalid authority"
  | .invalidFormat => "invalid format"
  | .schemeTooLong => "scheme too long"
  | .empty => "empty string"
  | .tooLong => "uri too long"

namespace Uri

/-- The path `/`. -/
def root : Uri := ⟨none, none, "/", none⟩

instance : Inhabited Uri := ⟨root⟩

/-- The text of a byte string that holds ASCII only. -/
def asciiText (bytes : Bytes) : String := String.ofList (bytes.map Percent.asciiChar)

/-! ## Authority -/

/-- A byte that may stand in an authority. -/
def isAuthorityByte (b : UInt8) : Bool :=
  Ascii.isAlphanumeric b || (Bytes.ofText "!$&'()*+,-.:;=@[]_~").contains b

/-- A byte that ends an authority. -/
def endsAuthority (b : UInt8) : Bool := b == 0x2f || b == 0x3f || b == 0x23

/-- What was seen of an authority so far. -/
structure AuthorityScan where
  /-- The colons since the last `@` or `]`. -/
  colons : Nat := 0
  /-- Whether `[` was seen. -/
  opened : Bool := false
  /-- Whether `]` was seen. -/
  closed : Bool := false
  /-- Whether `%` was seen since the last `@` or `]`. -/
  percent : Bool := false
  /-- Whether the last byte was `@`. -/
  endsInAt : Bool := false

/-- Looks at one more byte of an authority. -/
def AuthorityScan.step (s : AuthorityScan) (b : UInt8) : Except UriError AuthorityScan :=
  let s := { s with endsInAt := b == 0x40 }
  if b == 0x3a then
    if s.colons ≥ 8 then .error .invalidAuthority else .ok { s with colons := s.colons + 1 }
  else if b == 0x5b then
    if s.percent || s.opened then .error .invalidAuthority else .ok { s with opened := true }
  else if b == 0x5d then
    if !s.opened || s.closed then .error .invalidAuthority
    else .ok { s with closed := true, colons := 0, percent := false }
  else if b == 0x40 then .ok { s with colons := 0, percent := false }
  else if b == 0x25 then .ok { s with percent := true }
  else if isAuthorityByte b then .ok s
  else .error .invalidChar

/-- Whether an authority may end here. -/
def AuthorityScan.isComplete (s : AuthorityScan) : Bool :=
  s.opened == s.closed && s.colons ≤ 1 && !s.endsInAt && !s.percent

/-- Splits off an authority: its bytes and the rest from the byte that ends it. -/
def splitAuthority (bytes : Bytes) : Except UriError (Bytes × Bytes) := do
  let (authority, rest) := Bytes.splitBefore endsAuthority bytes
  let scan ← authority.foldlM AuthorityScan.step {}
  if scan.isComplete then .ok (authority, rest) else .error .invalidAuthority

/-! ## Path and query -/

/-- A byte that may stand in a path. -/
def isPathByte (b : UInt8) : Bool :=
  b == 0x21 || b == 0x22 || (0x24 ≤ b && b ≤ 0x3b) || b == 0x3d || (0x40 ≤ b && b ≤ 0x5f)
    || (0x61 ≤ b && b ≤ 0x7e)

/-- A byte that may stand in a query. -/
def isQueryByte (b : UInt8) : Bool :=
  b == 0x21 || (0x24 ≤ b && b ≤ 0x3b) || b == 0x3d || (0x3f ≤ b && b ≤ 0x7e)

/-- Reads a path and a query; a fragment is dropped unread. -/
def splitPath (bytes : Bytes) : Except UriError (String × Option String) :=
  let (path, rest) := Bytes.splitBefore (fun b => b == 0x3f || b == 0x23) bytes
  if !path.all isPathByte then .error .invalidChar
  else match rest with
    | 0x3f :: rest =>
      let query := (Bytes.splitBefore (· == 0x23) rest).1
      if query.all isQueryByte then .ok (asciiText path, some (asciiText query))
      else .error .invalidChar
    | _ => .ok (asciiText path, none)

/-! ## Scheme -/

/-- A byte that may stand in a scheme. -/
def isSchemeByte (b : UInt8) : Bool :=
  Ascii.isAlphanumeric b || b == 0x2b || b == 0x2d || b == 0x2e || b == 0x7e

/-- Splits off a scheme and its `://`, if the text starts with one. -/
def splitScheme (bytes : Bytes) : Except UriError (Option String × Bytes) :=
  let (scheme, rest) := bytes.span isSchemeByte
  match rest with
  | 0x3a :: 0x2f :: 0x2f :: rest =>
    let lower := asciiText (Bytes.toLower scheme)
    if lower == "http" || lower == "https" then .ok (some lower, rest)
    else if bytes.length ≤ 3 then .ok (none, bytes)
    else if scheme.length > 64 then .error .schemeTooLong
    else .ok (some (asciiText scheme), rest)
  | _ => .ok (none, bytes)

/-- Reads a request target. -/
def parseBytes (bytes : Bytes) : Except UriError Uri :=
  if bytes.length > 65534 then .error .tooLong
  else match bytes with
  | [] => .error .empty
  | [0x2f] => .ok root
  | [0x2a] => .ok ⟨none, none, "*", none⟩
  | [b] => do
    let (authority, rest) ← splitAuthority [b]
    if rest.isEmpty then .ok ⟨none, some (asciiText authority), "", none⟩
    else .error .invalidChar
  | 0x2f :: _ => do
    let (path, query) ← splitPath bytes
    .ok ⟨none, none, path, query⟩
  | _ => do
    let (scheme, rest) ← splitScheme bytes
    let (authority, rest) ← splitAuthority rest
    if scheme.isNone then
      if rest.isEmpty then .ok ⟨none, some (asciiText authority), "", none⟩
      else .error .invalidFormat
    else if authority.isEmpty then .error .invalidFormat
    else
      let (path, query) ← splitPath rest
      .ok ⟨scheme, some (asciiText authority), path, query⟩

/-- Reads a request target. -/
def parse (s : String) : Except UriError Uri := parseBytes (Bytes.ofText s)

/-! ## Views -/

/-- The path; an absolute address without one has the path `/`. -/
def path (u : Uri) : String :=
  if u.rawPath == "" && (u.scheme.isSome || u.query.isSome) then "/" else u.rawPath

/-- The text of the target. -/
def text (u : Uri) : String :=
  (u.scheme.map (· ++ "://")).getD "" ++ u.authority.getD "" ++ u.path
    ++ (u.query.map ("?" ++ ·)).getD ""

/-- The part of an authority behind the user information. -/
def hostPort (authority : List Char) : List Char :=
  (authority.reverse.takeWhile (· != '@')).reverse

/-- The host, in brackets if it is an address with colons. -/
def host? (u : Uri) : Option String :=
  u.authority.map fun a =>
    let hp := hostPort a.toList
    if hp.head? == some '[' then String.ofList (hp.takeWhile (· != ']') ++ [']'])
    else String.ofList (hp.takeWhile (· != ':'))

/-- A port number: decimal digits below 2¹⁶, with an optional plus sign. -/
def portOf? (s : List Char) : Option Nat :=
  let digits := match s with
    | '+' :: rest => rest
    | _ => s
  if digits.isEmpty || !digits.all Char.isDigit then none
  else
    let n := digits.foldl (fun n c => 10 * n + (c.toNat - 48)) 0
    if n < 65536 then some n else none

/-- The port, if the text behind the last colon is a port number. -/
def port? (u : Uri) : Option Nat := do
  let a ← u.authority
  if a.toList.contains ':' then
    portOf? (a.toList.reverse.takeWhile (· != ':')).reverse
  else none

end Uri

end ApiClient
