import ApiClient.Http.Uri
import ApiClient.Text.Pieces
import ApiClient.Text.Quoted
import ApiClient.Text.Utf8
import ApiClient.Url.Domain

/-!
# ApiClient.Url.Host

Hosts: domains and addresses of version 4 and 6.

Design points:

* A domain whose last label is a number is an address of version 4, in decimal, octal or hexadecimal
  parts, the last part filling what is left.
* An address of version 6 is its eight groups; its text shortens the first longest run of at least
  two zero groups.
* What is no address is a domain in its ASCII form. A scheme without rules for hosts keeps any host
  as it was written, apart from the encoding of controls and of characters beyond ASCII.
-/

namespace ApiClient

/-- What a URL names as its host. -/
inductive Host where
  /-- A domain, or any host of a scheme that has no rules for hosts. -/
  | domain (name : String)
  /-- An address of version 4. -/
  | ipv4 (address : Nat)
  /-- An address of version 6, as eight groups of 16 bits. -/
  | ipv6 (groups : List Nat)
deriving Repr, DecidableEq

/-- Why a text is no URL. -/
inductive UrlError where
  /-- No scheme. -/
  | relativeWithoutBase
  /-- No scheme, and a base whose path has no structure. -/
  | relativeWithFlatBase
  /-- No host where one is due. -/
  | emptyHost
  /-- A port that is not a 16-bit number. -/
  | invalidPort
  /-- An ill-formed address of version 4. -/
  | invalidIpv4
  /-- An ill-formed address of version 6. -/
  | invalidIpv6
  /-- A domain with a character that domains cannot have. -/
  | invalidDomain
  /-- A host with a character that hosts cannot have. -/
  | invalidHostChar
deriving Repr, DecidableEq

/-- The text of the error. -/
def UrlError.message : UrlError → String
  | .relativeWithoutBase => "relative URL without a base"
  | .relativeWithFlatBase => "relative URL with a cannot-be-a-base base"
  | .emptyHost => "empty host"
  | .invalidPort => "invalid port number"
  | .invalidIpv4 => "invalid IPv4 address"
  | .invalidIpv6 => "invalid IPv6 address"
  | .invalidDomain => "invalid international domain name"
  | .invalidHostChar => "invalid domain character"

namespace Host

/-- The value of a digit in a base up to sixteen. -/
def digit? (base : Nat) (c : Char) : Option Nat := do
  let n ← if c.toNat < 128 then Ascii.hexValue? (Ascii.byte c) else none
  if n < base then some n else none

/-- The value of digits in a base; no digits have the value zero. -/
def number? (base : Nat) (digits : List Char) : Option Nat :=
  digits.foldlM (fun n c => do some (base * n + (← digit? base c))) 0

/-! ## Version 4 -/

/-- A part of an address: `0x` marks hexadecimal, a leading zero octal. -/
def ipv4Part? (part : List Char) : Option Nat :=
  match part with
  | [] => none
  | '0' :: 'x' :: digits => number? 16 digits
  | '0' :: 'X' :: digits => number? 16 digits
  | '0' :: digits => number? 8 digits
  | digits => number? 10 digits

/-- The labels of a domain without an empty last one. -/
def labels (name : List Char) : List (List Char) :=
  let parts := Pieces.cut '.' name
  if parts.length > 1 && parts.getLast? == some [] then parts.dropLast else parts

/-- Whether the last label of a domain is a number. -/
def endsInNumber (name : List Char) : Bool :=
  match (labels name).getLast? with
  | none => false
  | some last =>
    (!last.isEmpty && last.all Char.isDigit)
      || (last.take 2 == ['0', 'x'] || last.take 2 == ['0', 'X']) && (ipv4Part? last).isSome

/-- Reads an address of version 4. -/
def parseIpv4 (name : List Char) : Except UrlError Host :=
  match (labels name).mapM ipv4Part? with
  | none => .error .invalidIpv4
  | some parts =>
    match parts.reverse with
    | [] => .error .invalidIpv4
    | last :: rest =>
      if parts.length > 4 || rest.any (· > 255) || last ≥ Nat.pow 256 (5 - parts.length) then
        .error .invalidIpv4
      else
        let high := rest.reverse.zipIdx.foldl (fun n (p, i) => n + p * Nat.pow 256 (3 - i)) 0
        .ok (.ipv4 (high + last))

/-- The text of an address of version 4. -/
def ipv4Text (a : Nat) : String :=
  s!"{a / 0x1000000}.{a / 0x10000 % 256}.{a / 0x100 % 256}.{a % 256}"

/-! ## Version 6 -/

/-- The two groups of an embedded address of version 4. -/
def embeddedIpv4? (s : List Char) : Option (List Nat) := do
  let parts ← (Pieces.cut '.' s).mapM fun part =>
    if part.isEmpty || part.length > 3 || (part.length > 1 && part.head? == some '0') then none
    else do
      let n ← number? 10 part
      if n ≤ 255 then some n else none
  match parts with
  | [a, b, c, d] => some [a * 256 + b, c * 256 + d]
  | _ => none

/-- A group of one to four hexadecimal digits. -/
def group? (s : List Char) : Option Nat :=
  if s.isEmpty || s.length > 4 then none else number? 16 s

/-- Groups separated by colons; the last may be an embedded address if `tail` allows it. -/
def groups? (tail : Bool) (s : List Char) : Option (List Nat) :=
  if s.isEmpty then some []
  else
    let parts := Pieces.cut ':' s
    let last := parts.getLast?.getD []
    if tail && last.contains '.' then do
      some ((← parts.dropLast.mapM group?) ++ (← embeddedIpv4? last))
    else parts.mapM group?

/-- Splits a text at its first double colon. -/
def splitDoubleColon : List Char → Option (List Char × List Char)
  | ':' :: ':' :: rest => some ([], rest)
  | c :: rest => (splitDoubleColon rest).map fun (a, b) => (c :: a, b)
  | [] => none

/-- Reads an address of version 6, without its brackets. -/
def parseIpv6 (s : List Char) : Except UrlError Host :=
  let groups := match splitDoubleColon s with
    | some (left, right) => do
      let a ← groups? false left
      let b ← groups? true right
      if a.length + b.length ≤ 7 then some (a ++ List.replicate (8 - a.length - b.length) 0 ++ b)
      else none
    | none => do
      let a ← groups? true s
      if a.length == 8 then some a else none
  match groups with
  | some g => .ok (.ipv6 g)
  | none => .error .invalidIpv6

/-- The length of the run of zero groups at each position. -/
def zeroRuns : List Nat → List Nat
  | [] => []
  | g :: rest => let runs := zeroRuns rest
    (if g == 0 then runs.headD 0 + 1 else 0) :: runs

/-- The text of groups, separated by colons. -/
def groupsText (groups : List Nat) : String :=
  ":".intercalate (groups.map fun g => String.ofList (Nat.toDigits 16 g))

/-- The text of an address of version 6, without brackets. -/
def ipv6Text (groups : List Nat) : String :=
  let runs := zeroRuns groups
  let longest := runs.foldl max 0
  if longest < 2 then groupsText groups
  else
    let start := runs.findIdx (· == longest)
    groupsText (groups.take start) ++ "::" ++ groupsText (groups.drop (start + longest))

/-! ## Hosts -/

/-- Reads the host of a scheme whose hosts are domains or addresses. -/
def parse (s : List Char) : Except UrlError Host :=
  if s.head? == some '[' then
    if s.getLast? == some ']' then parseIpv6 (s.drop 1).dropLast else .error .invalidIpv6
  else
    let decoded := Utf8.decodeLossy (Percent.decode (Bytes.ofText (String.ofList s)))
    match Domain.ascii? decoded.toList with
    | none => .error .invalidDomain
    | some [] => .error .emptyHost
    | some name =>
      if endsInNumber name then parseIpv4 name else .ok (.domain (String.ofList name))

/-- A character that no host has. -/
def isForbidden (c : Char) : Bool :=
  c.toNat == 0 || "\t\n\r #/:<>?@[\\]^|".toList.contains c

/-- Reads the host of a scheme that has no rules for hosts. -/
def parseUnruled (s : List Char) : Except UrlError Host :=
  if s.head? == some '[' then
    if s.getLast? == some ']' then parseIpv6 (s.drop 1).dropLast else .error .invalidIpv6
  else if s.any isForbidden then .error .invalidHostChar
  else .ok
    (.domain (Percent.encodeText (fun b => !Ascii.isControl b && b < 0x80) (String.ofList s)))

/-- The text of a host; an address of version 6 stands in brackets. -/
def text : Host → String
  | domain name => name
  | ipv4 a => ipv4Text a
  | ipv6 groups => "[" ++ ipv6Text groups ++ "]"

/-- The host in diagnostics. -/
def debug : Host → String
  | domain name => s!"Domain({Quoted.text name})"
  | ipv4 a => s!"Ipv4({ipv4Text a})"
  | ipv6 groups => s!"Ipv6({ipv6Text groups})"

end Host

end ApiClient
