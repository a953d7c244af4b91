import ApiClient.Engine.Answer.Chunks

/-!
# ApiClient.Engine.Pooled.Answer

Answers as the pooled client reads them.

Design points:

* The client is strict. One byte out of place in a head makes the whole answer one that violates the
  protocol, whatever else is in it.
* Interim answers are passed over. A change of the protocol is an answer without a body.
* A head that leaves open how far the body goes is refused: lengths that differ, a length that is no
  number, or chunks in the old version.
-/

namespace ApiClient.Pooled

/-! ## Heads -/

/-- The data behind the empty lines at its front. -/
def dropEmptyLines : Bytes → Bytes
  | 0x0d :: 0x0a :: rest => dropEmptyLines rest
  | 0x0a :: rest => dropEmptyLines rest
  | data => data

/-- The version at the front of a status line, and what stands behind it. -/
def versionOf? (line : Bytes) : Option (Version × Bytes) :=
  let (front, rest) := line.splitAt 9
  if front = Bytes.ofText "HTTP/1.0 " then some (.http10, rest)
  else if front = Bytes.ofText "HTTP/1.1 " then some (.http11, rest)
  else none

/-- The version and the status of a status line: three digits, and then nothing or a blank and a
text. -/
def statusLine? (line : Bytes) : Option (Version × Status) := do
  let (version, rest) ← versionOf? line
  let (code, reason) := rest.splitAt 3
  let status ← if code.length = 3 then Status.ofNat? (← Answer.decimal? code) else none
  if reason.isEmpty || reason.head? == some 0x20 && reason.all HeaderValue.isByte then
    return (version, status)
  else none

/-- The name and the value of a header line. The name is a token without quotes. -/
def headerLine? (line : Bytes) : Option (HeaderName × HeaderValue) := do
  let (name, value) ← Answer.fieldOf line
  let name ← if name.contains 0x22 then none else HeaderName.ofText? (← Utf8.decode? name)
  return (name, ← HeaderValue.ofBytes? (Answer.trim value))

/-- The greatest number of header lines. -/
def maxFields : Nat := 100

/-- The head of an answer, if it follows the grammar. -/
def head? (data : Bytes) : Option Answer.Head := do
  let (lines, rest) ← (Answer.takeLines (dropEmptyLines data)).toOption
  match lines with
  | [] => none
  | first :: others =>
    let (version, status) ← statusLine? first
    if others.length > maxFields then none
    else return ⟨version, status, .ofLines (← others.mapM headerLine?), rest⟩

/-- The head behind interim answers, of which there are fewer than `fuel`. -/
def finalHead? : (fuel : Nat) → Bytes → Option Answer.Head
  | 0, _ => none
  | fuel + 1, data => do
    let head ← head? data
    if Answer.isInterim head.status.code then finalHead? fuel head.rest else return head

/-! ## Framing -/

/-- How far a body goes. -/
inductive Framing where
  /-- There is no body. -/
  | absent
  /-- The body is in chunks. -/
  | chunked
  /-- The body has a length. -/
  | length (n : Nat)
  /-- The body is all that comes. -/
  | untilClose
deriving Repr, DecidableEq

/-- The members of a list in a header value, without the blanks around them. -/
def members (value : HeaderValue) : Option (List Bytes) :=
  if value.isVisible then some ((Bytes.splitOn 0x2c value.bytes).map Answer.trim) else none

/-- Whether chunks are the last of the codings in the last of the lines. -/
def endsInChunks (codings : List HeaderValue) : Bool :=
  ((codings.getLast?.bind members).bind List.getLast?).map Bytes.toLower
    == some (Bytes.ofText "chunked")

/-- The number that all members of all lines agree on. -/
def agreedLength? (lengths : List HeaderValue) : Option Nat := do
  let numbers ← (← lengths.mapM members).flatten.mapM Answer.decimal?
  let n ← numbers.head?
  if numbers.all (· == n) && n < Answer.wordLimit then some n else none

/-- The greatest length of a body. -/
def maxLength : Nat := Answer.wordLimit - 3

/-- How far the body goes that answers a request with the given method, if the head says it
clearly. -/
def framing? (method : Method) (h : Answer.Head) : Option Framing :=
  let code := h.status.code
  if code == 101 || code == 204 || code == 304 || method = .head
      || method.text == "CONNECT" && 200 ≤ code && code < 300 then some .absent
  else if h.headers.contains .transferEncoding then
    if h.version = .http10 then none
    else if endsInChunks (h.headers.values .transferEncoding) then some .chunked
    else some .untilClose
  else if h.headers.contains .contentLength then
    ((agreedLength? (h.headers.values .contentLength)).filter (· ≤ maxLength)).map .length
  else some .untilClose

/-! ## Chunks -/

/-- The end of a size line: nothing, or a semicolon and any text without a line feed. -/
def sizeEnd? (data : Bytes) : Option Bytes :=
  match data with
  | 0x3b :: rest =>
    let (text, rest) := (rest.takeWhile (· ≠ 0x0d), rest.dropWhile (· ≠ 0x0d))
    if text.contains 0x0a then none else Answer.lineEnd? rest
  | _ => Answer.lineEnd? data

/-- The size at the front of a chunk, with blanks behind it. -/
def chunkSize? (data : Bytes) : Option (Nat × Bytes) := do
  let n ← (Answer.hexadecimal? (data.takeWhile Ascii.isHexDigit)).filter (· < Answer.wordLimit)
  let behind := (data.dropWhile Ascii.isHexDigit).dropWhile fun b => b == 0x20 || b == 0x09
  return (n, ← sizeEnd? behind)

theorem length_lt_of_sizeEnd? {data rest : Bytes} (h : sizeEnd? data = some rest) :
    rest.length < data.length := by
  unfold sizeEnd? at h
  split at h
  · dsimp only at h
    split at h
    · simp at h
    · next tail _ =>
      have := Answer.length_lt_of_lineEnd? h
      have := Answer.length_dropWhile_le (· ≠ 0x0d) tail
      simp only [List.length_cons]
      omega
  · exact Answer.length_lt_of_lineEnd? h

/-- The chunks of the pooled client. -/
def chunks : Answer.ChunkGrammar where
  size? := chunkSize?
  close? := Answer.lineEnd?
  size_lt h := by
    simp only [chunkSize?, Option.bind_eq_bind, Option.bind_eq_some_iff, Option.pure_def,
      Option.some.injEq, Prod.mk.injEq] at h
    obtain ⟨n, _, rest', h₁, _, rfl⟩ := h
    have := length_lt_of_sizeEnd? h₁
    refine Nat.lt_of_lt_of_le this ?_
    exact Nat.le_trans (Answer.length_dropWhile_le _ _) (Answer.length_dropWhile_le _ _)
  close_le := Answer.length_le_of_lineEnd?

/-- Whether lines, of which there are at most `fuel`, lead to an empty one. -/
def endsInEmptyLine : (fuel : Nat) → Bytes → Bool
  | 0, _ => false
  | fuel + 1, data =>
    match data with
    | [] => false
    | 0x0d :: rest => rest.head? == some 0x0a
    | _ => match Answer.lineEnd? (data.dropWhile (· ≠ 0x0d)) with
      | some rest => endsInEmptyLine fuel rest
      | none => false

/-- A body in chunks. -/
def chunkSource (data : Bytes) : Source :=
  match chunks.read data with
  | (bytes, .closed rest) =>
    if endsInEmptyLine (rest.length + 1) rest then .ofBytes bytes
    else Answer.failingSource bytes Answer.brokenBody
  | (bytes, _) => Answer.failingSource bytes Answer.brokenBody

/-- The body with the given framing in the bytes behind a head. -/
def Framing.source (rest : Bytes) : Framing → Source
  | absent => .ofBytes []
  | chunked => chunkSource rest
  | length n => Answer.lengthSource n Answer.brokenBody rest
  | untilClose => .ofBytes rest

end ApiClient.Pooled
