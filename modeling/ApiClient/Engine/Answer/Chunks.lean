import ApiClient.Engine.Answer

/-!
# ApiClient.Engine.Answer.Chunks

Bodies in chunks, each with its size in front of it and a line end behind it.

Design points:

* Engines differ in what they let pass for a size and for a line end, and in nothing else. So a
  reader of chunks is made from these two.
* A size takes at least one byte, so what is left gets shorter with every chunk.
* A chunk of no bytes is the last one. What follows its size is not read here.
-/

namespace ApiClient.Answer

/-- What an engine takes for a size and for the end of a chunk. -/
structure ChunkGrammar where
  /-- The size at the front, and the bytes behind its line. -/
  size? : Bytes → Option (Nat × Bytes)
  /-- The bytes behind the line end that closes a chunk. -/
  close? : Bytes → Option Bytes
  /-- A size takes bytes. -/
  size_lt {data rest : Bytes} {n : Nat} : size? data = some (n, rest) → rest.length < data.length
  /-- The end of a chunk gives no bytes back. -/
  close_le {data rest : Bytes} : close? data = some rest → rest.length ≤ data.length

/-- What comes behind the bytes of chunks. -/
inductive ChunkEnd where
  /-- The last chunk, with the bytes behind its size. -/
  | closed (rest : Bytes)
  /-- Nothing, in the middle of a chunk. -/
  | cut
  /-- No size, or no end of a chunk. -/
  | broken
deriving Repr, DecidableEq

/-- The bytes in chunks, and what comes behind them. -/
def ChunkGrammar.read (g : ChunkGrammar) (data : Bytes) : Bytes × ChunkEnd :=
  match h : g.size? data with
  | none => ([], .broken)
  | some (n, rest) =>
    if n = 0 then ([], .closed rest)
    else if rest.length < n then (rest, .cut)
    else
      match h' : g.close? (rest.drop n) with
      | none => (rest.take n, .broken)
      | some behind =>
        have : behind.length < data.length := by
          have h₁ := g.size_lt h
          have h₂ := g.close_le h'
          simp only [List.length_drop] at h₂
          omega
        let (bytes, tail) := g.read behind
        (rest.take n ++ bytes, tail)
termination_by data.length

/-- The bytes behind a carriage return and a line feed. -/
def lineEnd? : Bytes → Option Bytes
  | 0x0d :: 0x0a :: rest => some rest
  | _ => none

theorem length_lt_of_lineEnd? {data rest : Bytes} (h : lineEnd? data = some rest) :
    rest.length < data.length := by
  unfold lineEnd? at h
  split at h
  · simp only [Option.some.injEq] at h
    simp only [List.length_cons, h]
    omega
  · simp at h

theorem length_le_of_lineEnd? {data rest : Bytes} (h : lineEnd? data = some rest) :
    rest.length ≤ data.length :=
  Nat.le_of_lt (length_lt_of_lineEnd? h)

theorem length_dropWhile_le (p : UInt8 → Bool) (data : Bytes) :
    (data.dropWhile p).length ≤ data.length :=
  (List.dropWhile_suffix p).length_le

end ApiClient.Answer
