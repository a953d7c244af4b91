import ApiClient.Coding.Compressed
import ApiClient.Engine.Answer.Chunks

/-!
# ApiClient.Engine.Transfer.Answer

Answers as the transfer client reads them.

Design points:

* A line is read twice. The machine takes from it what says how the answer goes on, and then hands
  it over to the client, which understands fewer lines. So a line can fail in two ways.
* The client has no answer before the first byte of the body, decoded, or its end. What fails before
  that makes the transfer fail, and what fails later makes the body fail.
* Data that ends inside a head is an answer without a body, unless a body was announced.
* The machine undoes codings of the content that it knows, one behind the other. Of the codings of
  the message it knows chunks only, and takes no other.
-/

namespace ApiClient.Transfer

/-- Why an answer is not taken. -/
inductive Refusal where
  /-- It violates the protocol. -/
  | violation
  /-- Its body is encoded in a way that is not known, or not as it says. -/
  | coding
  /-- It breaks off, or the client does not understand a line that is handed over. -/
  | brokenOff
  /-- A line behind the chunks has no name. -/
  | nameless (line : Bytes)
deriving Repr, DecidableEq

/-- The refusal of an answer from the given address as a fault. -/
def Refusal.fault (url : String) : Refusal → EngineFault
  | violation => .badAnswer url
  | coding => .badContentCoding url
  | brokenOff => .brokenOff url
  | nameless line => .badHeaderLine (Utf8.decodeLossy line)

/-- What is known of an answer while its head is read. -/
structure Intake where
  /-- Whether the machine takes the answer for one of the old version. -/
  isOld : Bool
  /-- The code by which the machine goes. -/
  code : Nat
  /-- The version that the client shows. -/
  version : Version
  /-- The status that the client shows. -/
  status : Status
  /-- The headers that the client shows. -/
  headers : HeaderMap := ∅
  /-- The length of the body. -/
  length : Option Nat := none
  /-- Whether the body is in chunks. -/
  isChunked : Bool := false
  /-- The codings of the content, the first one applied first. -/
  codings : List String := []

/-! ## Status lines -/

/-- A number of three digits at the front of a line. -/
def codeOf? (line : Bytes) : Option Nat :=
  if (line.take 3).length = 3 then Answer.decimal? (line.take 3) else none

/-- What the machine takes from a status line: whether the version is the old one, and the code. A
line in a spelling that is not the protocol's counts as a success of the old version. -/
def machineStatus (line : Bytes) : Except Refusal (Bool × Nat) :=
  if Bytes.toLower (line.take 5) ≠ Bytes.ofText "http/" then .error .violation
  else if line.take 5 ≠ Bytes.ofText "HTTP/" then .ok (true, 200)
  else match line.drop 5 with
    | 0x31 :: 0x2e :: minor :: b :: rest =>
      match codeOf? rest with
      | some code =>
        if (minor == 0x30 || minor == 0x31) && Ascii.isLineBlank b then .ok (minor == 0x30, code)
        else .error .violation
      | none => .error .violation
    | major :: rest =>
      if major != 0x32 && major != 0x33 then .error .violation
      else if rest.head?.any Ascii.isLineBlank && (codeOf? (rest.drop 1)).isSome
          && (rest.drop 4).head?.any Ascii.isLineBlank then .error .violation
      else .ok (true, 200)
    | [] => .error .violation

/-- The versions as the client knows them. -/
def versions : List (Bytes × Version) :=
  [(Bytes.ofText "HTTP/0.9", .http09), (Bytes.ofText "HTTP/1.0", .http10),
   (Bytes.ofText "HTTP/1.1", .http11), (Bytes.ofText "HTTP/2", .http2),
   (Bytes.ofText "HTTP/3", .http3)]

/-- The version and the status that a line shows to the client. -/
def shownStatus? (line : Bytes) : Option (Version × Status) := do
  let (first, rest) := Bytes.splitBefore Ascii.isBlank line
  let version ← versions.lookup first
  let (code, _) := Bytes.splitBefore Ascii.isBlank (rest.dropWhile Ascii.isBlank)
  let n ← if code.length = 3 then Answer.decimal? code else none
  return (version, ← Status.ofNat? n)

/-! ## Header lines -/

/-- A byte string without blanks and line ends at its ends. -/
def trimLine (bytes : Bytes) : Bytes :=
  ((bytes.dropWhile Ascii.isBlank).reverse.dropWhile Ascii.isBlank).reverse

/-- Whether an answer with the given code has no body, whatever its headers say. -/
def lacksBody (code : Nat) : Bool := code < 200 || code == 204 || code == 304

/-- The members of a list in a header value, apart from empty ones, in lower case. -/
def members (value : Bytes) : List String :=
  ((Bytes.splitOn 0x2c value).map trimLine).filterMap fun m =>
    if m.isEmpty then none else some (Utf8.decodeLossy m.toLower)

/-- The greatest number of codings of the content. -/
def maxCodings : Nat := 4

/-- The limit of lengths and of sizes of chunks. -/
def lengthLimit : Nat := 0x8000000000000000

/-- Whether the codings of a message leave chunks as the only coding. Chunks count once, and nothing
else may stand behind them. -/
def readCodings : (isChunked inLine : Bool) → List String → Except Refusal Bool
  | isChunked, _, [] => .ok isChunked
  | isChunked, inLine, coding :: rest =>
    if coding == "chunked" then
      if isChunked then .ok true else readCodings true true rest
    else if inLine || !coding.startsWith "identity" then .error .coding
    else readCodings isChunked inLine rest

/-- What the machine takes from a header line: how far the body goes, and how it is encoded. -/
def Intake.frame (decodes : Bool) (name value : Bytes) (i : Intake) : Except Refusal Intake :=
  let name := Utf8.decodeLossy name.toLower
  if lacksBody i.code then .ok i
  else if name == "content-length" then
    let digits := (value.dropWhile Ascii.isLineBlank).takeWhile Ascii.isDigit
    match Answer.decimal? digits with
    | none => .error .violation
    | some n => .ok (if n < lengthLimit then { i with length := some n } else i)
  else if name == "content-encoding" && decodes then
    let codings := i.codings ++ members value
    if codings.length > maxCodings then .error .coding else .ok { i with codings }
  else if name == "transfer-encoding" then
    return { i with isChunked := ← readCodings i.isChunked false (members value) }
  else .ok i

/-- Hands a line over to the client. A line that reads like a status line starts the answer anew. -/
def Intake.handOver (line : Bytes) (i : Intake) : Except Refusal Intake :=
  match shownStatus? line with
  | some (version, status) => .ok { i with version, status, headers := ∅ }
  | none =>
    let field := do
      let (name, value) ← Answer.fieldOf line
      let name ← HeaderName.ofText? (← Utf8.decode? name)
      return i.headers.append name (← HeaderValue.ofBytes? (trimLine value))
    match field with
    | some headers => .ok { i with headers }
    | none => .error .brokenOff

/-- Reads a header line. -/
def Intake.header (decodes : Bool) (line : Bytes) (i : Intake) : Except Refusal Intake :=
  match Answer.fieldOf line with
  | none => .error .violation
  | some (name, value) =>
    if line.contains 0 then .error .violation
    else (i.frame decodes name value).bind (·.handOver line)

/-! ## Heads -/

/-- The line at the front, behind what was joined before, together with the lines that start with a
blank and so continue it; and the bytes behind it. It is not known where the line ends if no byte
follows. -/
def joinLine? (front data : Bytes) : Option (Bytes × Bytes) :=
  match h : Answer.splitLine data with
  | .error _ | .ok (_, []) => none
  | .ok (line, b :: rest) =>
    let line := front ++ line
    if Ascii.isLineBlank b then
      have : (rest.dropWhile Ascii.isLineBlank).length < data.length := by
        have h₁ := Answer.length_lt_of_splitLine h
        have h₂ := Answer.length_dropWhile_le Ascii.isLineBlank rest
        simp only [List.length_cons] at h₁
        omega
      joinLine? ((line.reverse.dropWhile Ascii.isBlank).reverse ++ [0x20])
        (rest.dropWhile Ascii.isLineBlank)
    else some (line, b :: rest)
termination_by data.length

theorem length_lt_of_joinLine? {front data line rest : Bytes}
    (h : joinLine? front data = some (line, rest)) : rest.length < data.length := by
  fun_induction joinLine? front data with
  | case1 => simp at h
  | case2 => simp at h
  | case3 front data line' b rest' hs line'' hb hlt ih => exact Nat.lt_trans (ih h) hlt
  | case4 front data line' b rest' hs line'' hb =>
    simp only [Option.some.injEq, Prod.mk.injEq] at h
    exact h.2 ▸ Answer.length_lt_of_splitLine hs

/-- Whether data starts with a line end, as behind a head. -/
def startsWithLineEnd (data : Bytes) : Bool := data.head?.any fun b => b == 0x0d || b == 0x0a

/-- Reads header lines, and gives the bytes behind the empty line if the data reaches it. -/
def readFields (decodes : Bool) (i : Intake) (data : Bytes) :
    Except Refusal (Intake × Option Bytes) :=
  if startsWithLineEnd data then
    match Answer.splitLine data with
    | .ok ([0x0d], rest) => .ok (i, some rest)
    | .ok _ => .error .brokenOff
    | .error _ => .ok (i, none)
  else match h : joinLine? [] data with
    | none => .ok (i, none)
    | some (line, rest) =>
      have := length_lt_of_joinLine? h
      match i.header decodes line with
      | .ok i => readFields decodes i rest
      | .error e => .error e
termination_by data.length

/-- Reads a head, and gives the bytes behind it if the data reaches its end. -/
def readHead (decodes : Bool) (data : Bytes) : Except Refusal (Intake × Option Bytes) :=
  match Answer.splitLine data with
  | .error _ => .error .violation
  | .ok (line, rest) => do
    if line.contains 0 then throw .violation
    let (isOld, code) ← machineStatus line
    let some (version, status) := shownStatus? line | throw .brokenOff
    readFields decodes { isOld, code, version, status } rest

/-- Reads the head behind interim answers, of which there are fewer than `fuel`. -/
def readFinalHead (decodes : Bool) : (fuel : Nat) → Bytes → Except Refusal (Intake × Option Bytes)
  | 0, _ => .error .violation
  | fuel + 1, data => do
    match ← readHead decodes data with
    | (i, some rest) =>
      if Answer.isInterim i.code then readFinalHead decodes fuel rest else return (i, some rest)
    | cut => return cut

/-! ## Bodies -/

/-- The bytes of a body that come, and what goes wrong behind them. -/
structure Delivery where
  /-- The bytes. -/
  bytes : Bytes
  /-- What goes wrong. -/
  fault : Option Refusal := none
  /-- The bytes behind the last chunk. -/
  rest : Option Bytes := none

/-- The greatest number of digits in the size of a chunk. -/
def maxSizeDigits : Nat := 16

/-- The size at the front of a chunk. Everything behind it is ignored up to the line end. -/
def chunkSize? (data : Bytes) : Option (Nat × Bytes) := do
  let digits := data.takeWhile Ascii.isHexDigit
  let n ← (Answer.hexadecimal? digits).filter (· < lengthLimit)
  if digits.length > maxSizeDigits then none
  else match data.dropWhile (· ≠ 0x0a) with
    | _ :: rest => some (n, rest)
    | [] => none

/-- The bytes behind a line feed with any carriage returns in front of it. -/
def chunkEnd? (data : Bytes) : Option Bytes :=
  match data.dropWhile (· == 0x0d) with
  | 0x0a :: rest => some rest
  | _ => none

/-- The chunks of the transfer client. -/
def chunks : Answer.ChunkGrammar where
  size? := chunkSize?
  close? := chunkEnd?
  size_lt {data rest n} h := by
    simp only [chunkSize?, Option.bind_eq_bind, Option.bind_eq_some_iff] at h
    obtain ⟨_, _, h⟩ := h
    split at h
    · simp at h
    · split at h
      · next heq =>
        have := Answer.length_dropWhile_le (· ≠ 0x0a) data
        simp_all only [List.length_cons, Option.some.injEq, Prod.mk.injEq]
        omega
      · simp at h
  close_le {data rest} h := by
    unfold chunkEnd? at h
    split at h
    · next heq =>
      have := Answer.length_dropWhile_le (· == 0x0d) data
      simp_all only [List.length_cons, Option.some.injEq]
      omega
    · simp at h

/-- The lines behind the last chunk, and whether an empty line follows them. -/
def trailers : (fuel : Nat) → Bytes → List Bytes × Bool
  | 0, _ => ([], false)
  | fuel + 1, data =>
    if startsWithLineEnd data then
      ([], (if data.head? = some 0x0d then data.drop 1 else data).head? = some 0x0a)
    else
      let (line, rest) := Bytes.splitBefore (fun b => b == 0x0d || b == 0x0a) data
      match rest with
      | 0x0d :: 0x0a :: rest | 0x0a :: rest =>
        let (lines, ends) := trailers fuel rest
        (line :: lines, ends)
      | [] => ([], false)
      | _ => ([line], false)

/-- Takes a line from behind the chunks. -/
def Intake.trailer (line : Bytes) (i : Intake) : Except Refusal Intake :=
  if !line.contains 0x3a && !line.head?.any Ascii.isLineBlank then .error (.nameless line)
  else i.handOver line

/-- The body behind a head, as it comes. -/
def Intake.delivery (i : Intake) (rest : Bytes) : Delivery :=
  if i.code == 101 then
    if i.isOld || rest.isEmpty then ⟨[], some .violation, none⟩ else ⟨rest, none, none⟩
  else if lacksBody i.code then ⟨[], none, none⟩
  else if i.isChunked then
    match chunks.read rest with
    | (bytes, .closed rest) => ⟨bytes, none, some rest⟩
    | (bytes, _) => ⟨bytes, some .brokenOff, none⟩
  else match i.length with
    | some n => ⟨rest.take n, if rest.length < n then some .brokenOff else none, none⟩
    | none => ⟨rest, none, none⟩

/-- How a coding is undone, if it changes anything. -/
def decoder? (coding : String) : Option (Bytes → Compressed.Result) :=
  if coding == "gzip" || coding == "x-gzip" then some Compressed.detected
  else if coding == "deflate" then some Compressed.deflate
  else if coding == "identity" || coding == "none" then none
  else some fun _ => .failed .corrupt

/-- Undoes a coding of the bytes that came. Data that is cut off gives what there is. -/
def Delivery.undo (d : Delivery) (coding : String) : Delivery :=
  if d.bytes.isEmpty then d
  else match decoder? coding with
    | none => d
    | some decode =>
      let decoded := decode d.bytes
      let fault : Option Refusal := match decoded.fault with
        | some .corrupt => some .coding
        | some .cut => none
        | none => if decoded.rest.isEmpty then none else some .brokenOff
      { d with bytes := decoded.bytes, fault := fault.or d.fault }

/-- What is known of the answer behind its body, or what goes wrong there. -/
def Intake.ending (i : Intake) (d : Delivery) : Except Refusal Intake :=
  match d.fault, d.rest with
  | some refusal, _ => .error refusal
  | none, none => .ok i
  | none, some rest =>
    let (lines, ends) := trailers (rest.length + 1) rest
    (lines.foldlM (fun (i : Intake) line => i.trailer line) i).bind fun i =>
      if ends then .ok i else .error .brokenOff

/-- The answer with the given body. -/
def Intake.toAnswer (i : Intake) (body : Source) : EngineAnswer :=
  { status := i.status, version := i.version, headers := i.headers, body := [body] }

/-- Reads an answer. Codings of the content are undone if the client decodes. -/
def readAnswer (decodes : Bool) (data : Bytes) : Except Refusal EngineAnswer := do
  match ← readFinalHead decodes data.length data with
  | (i, none) =>
    if i.length.any (· ≠ 0) then .error .brokenOff else return i.toAnswer (.ofBytes [])
  | (i, some rest) =>
    let d := i.codings.reverse.foldl Delivery.undo (i.delivery rest)
    match i.ending d with
    | .ok ended => return (if d.bytes.isEmpty then ended else i).toAnswer (.ofBytes d.bytes)
    | .error refusal =>
      if d.bytes.isEmpty then .error refusal
      else return i.toAnswer (Answer.failingSource d.bytes Answer.brokenBody)

end ApiClient.Transfer
