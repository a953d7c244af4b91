import ApiClient.Text.Utf8

/-!
# ApiClient.Body.Source

Sources of bytes that are read once, from the front.

Design points:

* A source holds the bytes that it has not delivered. How many of them one read delivers depends on
  the place that was reached, and the source decides it; at least one byte comes while there are
  any.
* A source may fail at a place. It delivers everything before that place, and every read from there
  on fails, even one that asks for nothing.
* A stream is a chain of sources. An exhausted source is left behind by the next read that asks for
  something.
* The content of a body is a stream or bytes in memory with a place in them.
-/

namespace ApiClient

/-- The kinds of input and output errors. -/
inductive IoErrorKind where
  /-- No kind of its own. -/
  | other
  /-- Data that the reader cannot accept. -/
  | invalidData
  /-- Input that the reader does not understand. -/
  | invalidInput
  /-- A name that stands for nothing. -/
  | notFound
  /-- An end before the expected one. -/
  | unexpectedEof
  /-- A time limit that passed. -/
  | timedOut
  /-- An operation that would have to wait. -/
  | wouldBlock
  /-- A connection that the other side does not want. -/
  | connectionRefused
  /-- A connection that the other side closed. -/
  | brokenPipe
deriving Repr, DecidableEq

/-- The name of a kind. -/
def IoErrorKind.text : IoErrorKind → String
  | other => "Other"
  | invalidData => "InvalidData"
  | invalidInput => "InvalidInput"
  | notFound => "NotFound"
  | unexpectedEof => "UnexpectedEof"
  | timedOut => "TimedOut"
  | wouldBlock => "WouldBlock"
  | connectionRefused => "ConnectionRefused"
  | brokenPipe => "BrokenPipe"

/-- An input or output error. -/
structure IoError where
  /-- The kind. -/
  kind : IoErrorKind
  /-- The text. -/
  message : String
deriving Repr, DecidableEq

/-- The error of a text reader that met ill-formed UTF-8. -/
def IoError.invalidText : IoError := ⟨.invalidData, "stream did not contain valid UTF-8"⟩

/-- The result of reading. -/
abbrev ReadResult (α : Type) := Except IoError α

/-- A source of bytes. -/
structure Source where
  /-- The bytes that are still to come. -/
  rest : Bytes
  /-- How many bytes were delivered. -/
  position : Nat := 0
  /-- The greatest number of bytes, less one, that a read at a place delivers. -/
  pace : Nat → Option Nat := fun _ => none
  /-- The place from which on reading fails, and the error. -/
  failure : Option (Nat × IoError) := none

namespace Source

/-- A source that delivers all bytes it is asked for. -/
def ofBytes (bytes : Bytes) : Source := { rest := bytes }

/-- The error of reading at the current place. -/
def fault? (s : Source) : Option IoError :=
  s.failure.bind fun (place, e) => if place ≤ s.position then some e else none

/-- How many bytes are delivered before the source ends or fails. -/
def remaining (s : Source) : Nat :=
  match s.failure with
  | some (place, _) => min s.rest.length (place - s.position)
  | none => s.rest.length

/-- The source behind its next `n` bytes. -/
def advance (s : Source) (n : Nat) : Source :=
  { s with rest := s.rest.drop n, position := s.position + n }

/-- How many bytes a read into a buffer of `n` bytes delivers. -/
def stride (s : Source) (n : Nat) : Nat :=
  min s.remaining <| match s.pace s.position with
    | some limit => min n (limit + 1)
    | none => n

/-- One read into a buffer of `n` bytes; no bytes mean the end. -/
def read (n : Nat) (s : Source) : ReadResult Bytes × Source :=
  match s.fault? with
  | some e => (.error e, s)
  | none => (.ok (s.rest.take (s.stride n)), s.advance (s.stride n))

/-- What reads deliver until the end or a failure, and the failure. -/
def drain (s : Source) : Bytes × Option IoError × Source :=
  let behind := s.advance s.remaining
  (s.rest.take s.remaining, behind.fault?, behind)

end Source

/-- A chain of sources. -/
abbrev Stream := List Source

namespace Stream

/-- The stream of a single source that delivers all bytes it is asked for. -/
def ofBytes (bytes : Bytes) : Stream := [.ofBytes bytes]

/-- One read into a buffer of `n` bytes; no bytes mean the end. -/
def read (n : Nat) : Stream → ReadResult Bytes × Stream
  | [] => (.ok [], [])
  | s :: rest =>
    match s.read n with
    | (.ok [], s) => if n = 0 then (.ok [], s :: rest) else read n rest
    | (result, s) => (result, s :: rest)

/-- What reads deliver until the end or a failure, the failure, and what is left. -/
def drain : Stream → Bytes × Option IoError × Stream
  | [] => ([], none, [])
  | s :: rest =>
    match s.drain with
    | (bytes, some e, s) => (bytes, some e, s :: rest)
    | (bytes, none, _) =>
      let (more, failure, left) := drain rest
      (bytes ++ more, failure, left)

/-- All bytes that are still to come. A failure loses what was delivered before it. -/
def readAll (s : Stream) : ReadResult Bytes × Stream :=
  match s.drain with
  | (_, some e, left) => (.error e, left)
  | (bytes, none, left) => (.ok bytes, left)

end Stream

/-- Where the bytes of a body are. -/
inductive BodyContent where
  /-- Still to come from a stream. -/
  | stream (source : Stream)
  /-- In memory, the first `position` of them already read. -/
  | bytes (data : Bytes) (position : Nat)

namespace BodyContent

/-- All bytes, if they are in memory. -/
def data? : BodyContent → Option Bytes
  | stream _ => none
  | bytes data _ => some data

/-- One read into a buffer of `n` bytes. -/
def read (n : Nat) : BodyContent → ReadResult Bytes × BodyContent
  | stream source =>
    let (result, source) := source.read n
    (result, stream source)
  | bytes data position =>
    let piece := (data.drop position).take n
    (.ok piece, bytes data (position + piece.length))

/-- Everything that was not read yet. -/
def readAll : BodyContent → ReadResult Bytes × BodyContent
  | stream source =>
    let (result, source) := source.readAll
    (result, stream source)
  | bytes data position => (.ok (data.drop position), bytes data data.length)

end BodyContent

end ApiClient
