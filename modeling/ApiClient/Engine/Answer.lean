import ApiClient.Engine.Outcome

/-!
# ApiClient.Engine.Answer

What all engines see in the bytes of a server's answer.

Design points:

* A line ends at a line feed, and a carriage return in front of it belongs to the end. The head of
  an answer is lines up to an empty one.
* Which lines make a head, and how far the body behind it goes, every engine decides for itself.
  Some are strict and some are lenient, and a program sees the difference.
* A body that stops before its end fails when it is read, behind the bytes that came.
-/

namespace ApiClient.Answer

/-! ## Lines -/

/-- The bytes in front of a line feed and those behind it; or all bytes, if there is no line
feed. -/
def splitLine : Bytes → Except Bytes (Bytes × Bytes)
  | [] => .error []
  | b :: rest =>
    if b = 0x0a then .ok ([], rest)
    else match splitLine rest with
      | .ok (line, rest) => .ok (b :: line, rest)
      | .error line => .error (b :: line)

theorem length_lt_of_splitLine {data line rest : Bytes} (h : splitLine data = .ok (line, rest)) :
    rest.length < data.length := by
  induction data generalizing line rest with
  | nil => simp [splitLine] at h
  | cons b tail ih =>
    unfold splitLine at h
    split at h
    · simp only [Except.ok.injEq, Prod.mk.injEq] at h
      simp [h.2]
    · split at h
      · rename_i heq
        simp only [Except.ok.injEq, Prod.mk.injEq] at h
        have := ih heq
        simp only [List.length_cons, ← h.2]
        omega
      · simp at h

/-- A line without the carriage return at its end. -/
def dropReturn (line : Bytes) : Bytes := if line.getLast? = some 0x0d then line.dropLast else line

/-- A line without its end, and the bytes behind it; or the bytes of a line without end. -/
def takeLine (data : Bytes) : Except Bytes (Bytes × Bytes) :=
  (splitLine data).map fun (line, rest) => (dropReturn line, rest)

theorem length_lt_of_takeLine {data line rest : Bytes} (h : takeLine data = .ok (line, rest)) :
    rest.length < data.length := by
  unfold takeLine at h
  cases hs : splitLine data with
  | error e => simp [hs, Except.map] at h
  | ok p =>
    simp only [hs, Except.map, Except.ok.injEq, Prod.mk.injEq] at h
    have hs : splitLine data = .ok (p.1, p.2) := hs
    exact h.2 ▸ length_lt_of_splitLine hs

/-- Lines up to an empty one, and the bytes behind that one. -/
def takeLines (data : Bytes) : Except Bytes (List Bytes × Bytes) :=
  match h : takeLine data with
  | .error line => .error line
  | .ok ([], rest) => .ok ([], rest)
  | .ok (line, rest) =>
    have := length_lt_of_takeLine h
    match takeLines rest with
    | .ok (lines, rest) => .ok (line :: lines, rest)
    | .error e => .error e
termination_by data.length

/-- The name and the value of a header line. -/
def fieldOf (line : Bytes) : Option (Bytes × Bytes) :=
  match line.span (· ≠ 0x3a) with
  | (name, _ :: value) => some (name, value)
  | (_, []) => none

/-- A byte string without blanks at its ends. -/
def trim (bytes : Bytes) : Bytes :=
  ((bytes.dropWhile Ascii.isLineBlank).reverse.dropWhile Ascii.isLineBlank).reverse

/-! ## Numbers -/

/-- The number that decimal digits stand for. -/
def decimal? (bytes : Bytes) : Option Nat :=
  if bytes.isEmpty || !bytes.all Ascii.isDigit then none
  else some (bytes.foldl (fun n b => 10 * n + (b.toNat - 48)) 0)

/-- The number that hexadecimal digits stand for. -/
def hexadecimal? (bytes : Bytes) : Option Nat :=
  if bytes.isEmpty then none
  else bytes.foldlM (fun n b => (Ascii.hexValue? b).map (16 * n + ·)) 0

/-- One more than the greatest number of 64 bits. -/
def wordLimit : Nat := 0x10000000000000000

/-- The bytes behind a plus sign, or all bytes if they do not start with one. -/
def dropPlus (bytes : Bytes) : Bytes := if bytes.head? = some 0x2b then bytes.drop 1 else bytes

/-- A number of 64 bits, as programs read it: decimal digits behind an optional plus sign. -/
def word? (bytes : Bytes) : Option Nat := (decimal? (dropPlus bytes)).filter (· < wordLimit)

/-! ## Heads and bodies -/

/-- The head of an answer. -/
structure Head where
  /-- The protocol version. -/
  version : Version
  /-- The status. -/
  status : Status
  /-- The headers. -/
  headers : HeaderMap
  /-- The bytes behind the head. -/
  rest : Bytes

/-- Whether another answer follows one with the given code. -/
def isInterim (code : Nat) : Bool := code < 200 && code != 101

/-- The answer with the given headers and body. -/
def Head.toAnswer (h : Head) (headers : HeaderMap) (body : Source) : EngineAnswer :=
  { status := h.status, version := h.version, headers, body := [body] }

/-- The fault of a body that stops too early or is not encoded as it says. -/
def brokenBody : IoError := ⟨.other, "request or response body error"⟩

/-- A source of bytes that fails behind the last of them. -/
def failingSource (bytes : Bytes) (e : IoError) : Source :=
  { rest := bytes, failure := some (bytes.length, e) }

/-- A body of which at least `n` bytes are due. It fails with `e` if fewer came. -/
def lengthSource (n : Nat) (e : IoError) (rest : Bytes) : Source :=
  if rest.length < n then failingSource rest e else .ofBytes (rest.take n)

end ApiClient.Answer
