import ApiClient.Text.Bytes

/-!
# ApiClient.Coding.Inflate

Reading data in the deflate format.

Design points:

* The data is a sequence of bits, the lowest bit of each byte first. Every reader takes bits from
  the front and gives the rest.
* A code book is the number of codes of each length and the symbols in the order of their codes.
  Reading a symbol goes through the lengths, one bit each.
* Every symbol takes at least one bit, so the number of bits bounds the number of symbols and of
  blocks.
* Data that ends too early is told apart from data that violates the format; both keep what was
  decoded before.
-/

namespace ApiClient.Inflate

/-- Bits in reading order. -/
abbrev Bits := List Bool

/-- The bits of bytes, the lowest of each byte first. -/
def bitsOf (bytes : Bytes) : Bits :=
  bytes.flatMap fun b => (List.range 8).map b.toNat.testBit

/-- Why reading stopped. -/
inductive Fault where
  /-- The data ended too early. -/
  | cut
  /-- The data is not in the format. -/
  | corrupt
deriving Repr, DecidableEq

/-- A number of `n` bits, the lowest first. -/
def number : Nat → Bits → Except Fault (Nat × Bits)
  | 0, bits => .ok (0, bits)
  | _ + 1, [] => .error .cut
  | n + 1, bit :: bits => do
    let (high, rest) ← number n bits
    .ok (bit.toNat + 2 * high, rest)

/-! ## Code books -/

/-- A code book. -/
structure Book where
  /-- How many codes have one bit, two bits and so on. -/
  counts : List Nat
  /-- The symbols in the order of their codes. -/
  symbols : Array Nat

/-- The greatest length of a code. -/
def longest : Nat := 15

/-- The book in which symbol `i` has a code of the `i`-th length; the length zero means no code. -/
def Book.ofLengths (lengths : List Nat) : Book :=
  let ofLength (n : Nat) : List Nat :=
    lengths.zipIdx.filterMap fun (length, symbol) => if length = n then some symbol else none
  let groups := (List.range longest).map fun i => ofLength (i + 1)
  { counts := groups.map List.length, symbols := groups.flatten.toArray }

/-- The rank of the code at the front of the bits among the codes of a book. The codes of one length
are consecutive numbers from `first` on, and `passed` codes are shorter. -/
def rank : List Nat → (code first passed : Nat) → Bits → Except Fault (Nat × Bits)
  | [], _, _, _, _ => .error .corrupt
  | _ :: _, _, _, _, [] => .error .cut
  | count :: counts, code, first, passed, bit :: bits =>
    let code := 2 * code + bit.toNat
    if code < first + count then .ok (passed + (code - first), bits)
    else rank counts code (2 * (first + count)) (passed + count) bits

/-- The symbol whose code is at the front of the bits. -/
def Book.symbol (book : Book) (bits : Bits) : Except Fault (Nat × Bits) := do
  let (rank, rest) ← rank book.counts 0 0 0 bits
  match book.symbols[rank]? with
  | some symbol => .ok (symbol, rest)
  | none => .error .corrupt

/-! ## Symbols -/

/-- The least length of a copy and the number of bits that add to it, for the symbols from 257
on. -/
def copyLengths : List (Nat × Nat) :=
  [(3, 0), (4, 0), (5, 0), (6, 0), (7, 0), (8, 0), (9, 0), (10, 0), (11, 1), (13, 1), (15, 1),
   (17, 1), (19, 2), (23, 2), (27, 2), (31, 2), (35, 3), (43, 3), (51, 3), (59, 3), (67, 4),
   (83, 4), (99, 4), (115, 4), (131, 5), (163, 5), (195, 5), (227, 5), (258, 0)]

/-- The least distance of a copy and the number of bits that add to it, for each distance symbol. -/
def copyDistances : List (Nat × Nat) :=
  [(1, 0), (2, 0), (3, 0), (4, 0), (5, 1), (7, 1), (9, 2), (13, 2), (17, 3), (25, 3), (33, 4),
   (49, 4), (65, 5), (97, 5), (129, 6), (193, 6), (257, 7), (385, 7), (513, 8), (769, 8),
   (1025, 9), (1537, 9), (2049, 10), (3073, 10), (4097, 11), (6145, 11), (8193, 12),
   (12289, 12), (16385, 13), (24577, 13)]

/-- An entry of a table with its added bits. -/
def entry (table : List (Nat × Nat)) (i : Nat) (bits : Bits) : Except Fault (Nat × Bits) :=
  match table[i]? with
  | none => .error .corrupt
  | some (least, width) => do
    let (added, rest) ← number width bits
    .ok (least + added, rest)

/-- The output with `n` more bytes, each a copy of the byte `distance` places before it. -/
def copy (distance : Nat) : Nat → Array UInt8 → Array UInt8
  | 0, out => out
  | n + 1, out => copy distance n (out.push (out.getD (out.size - distance) 0))

/-- What a reader has decoded, and the bits behind it or why there are none. -/
abbrev Progress := Array UInt8 × Except Fault Bits

/-- The symbols of a block up to its end, at most `fuel` of them. -/
def readSymbols (literals distances : Book) : (fuel : Nat) → Array UInt8 → Bits → Progress
  | 0, out, _ => (out, .error .cut)
  | fuel + 1, out, bits =>
    match literals.symbol bits with
    | .error e => (out, .error e)
    | .ok (symbol, bits) =>
      if symbol < 256 then readSymbols literals distances fuel (out.push symbol.toUInt8) bits
      else if symbol = 256 then (out, .ok bits)
      else
        let reference : Except Fault (Nat × Nat × Bits) := do
          let (length, bits) ← entry copyLengths (symbol - 257) bits
          let (symbol, bits) ← distances.symbol bits
          let (distance, bits) ← entry copyDistances symbol bits
          if distance > out.size then throw .corrupt
          return (length, distance, bits)
        match reference with
        | .error e => (out, .error e)
        | .ok (length, distance, bits) =>
          readSymbols literals distances fuel (copy distance length out) bits

/-! ## Blocks -/

/-- The books of blocks without books of their own. -/
def fixedBooks : Book × Book :=
  (.ofLengths (List.replicate 144 8 ++ List.replicate 112 9 ++ List.replicate 24 7
      ++ List.replicate 8 8),
   .ofLengths (List.replicate 30 5))

/-- The order in which the lengths of the codes for lengths are written. -/
def lengthOrder : List Nat := [16, 17, 18, 0, 8, 7, 9, 6, 10, 5, 11, 4, 12, 3, 13, 2, 14, 1, 15]

/-- `n` numbers of three bits. -/
def smallNumbers : Nat → Bits → Except Fault (List Nat × Bits)
  | 0, bits => .ok ([], bits)
  | n + 1, bits => do
    let (first, bits) ← number 3 bits
    let (others, bits) ← smallNumbers n bits
    .ok (first :: others, bits)

/-- Code lengths, at least `total` of them; `done` are those before, the last one first. -/
def readLengths (book : Book) (total : Nat) :
    (fuel : Nat) → List Nat → Bits → Except Fault (List Nat × Bits)
  | 0, _, _ => .error .cut
  | fuel + 1, done, bits =>
    if done.length ≥ total then .ok (done.reverse, bits)
    else do
      let (symbol, bits) ← book.symbol bits
      let again (length least width : Nat) : Except Fault (List Nat × Bits) := do
        let (added, bits) ← number width bits
        readLengths book total fuel (List.replicate (least + added) length ++ done) bits
      match symbol, done with
      | 16, last :: _ => again last 3 2
      | 16, [] => .error .corrupt
      | 17, _ => again 0 3 3
      | 18, _ => again 0 11 7
      | length, _ => readLengths book total fuel (length :: done) bits

/-- The books at the front of a block. -/
def readBooks (bits : Bits) : Except Fault ((Book × Book) × Bits) := do
  let (literals, bits) ← number 5 bits
  let (distances, bits) ← number 5 bits
  let (count, bits) ← number 4 bits
  let (lengths, bits) ← smallNumbers (count + 4) bits
  let book := Book.ofLengths <| (List.range 19).map fun symbol =>
    ((lengthOrder.zip lengths).lookup symbol).getD 0
  let total := literals + 257 + (distances + 1)
  let (lengths, bits) ← readLengths book total (total + 1) [] bits
  if lengths.length ≠ total then throw .corrupt
  let (literals, distances) := lengths.splitAt (literals + 257)
  .ok ((.ofLengths literals, .ofLengths distances), bits)

/-- `n` bytes as they are. -/
def readBytes : Nat → Array UInt8 → Bits → Progress
  | 0, out, bits => (out, .ok bits)
  | n + 1, out, bits =>
    match number 8 bits with
    | .error e => (out, .error e)
    | .ok (byte, bits) => readBytes n (out.push byte.toUInt8) bits

/-- The bits from the next byte on, where `total` bits make up whole bytes. -/
def align (bits : Bits) : Bits := bits.drop (bits.length % 8)

/-- A block, behind its first bit. -/
def readBlock (out : Array UInt8) (bits : Bits) : Progress :=
  let coded (books : (Book × Book) × Bits) : Progress :=
    readSymbols books.1.1 books.1.2 (books.2.length + 1) out books.2
  match number 2 bits with
  | .error e => (out, .error e)
  | .ok (0, bits) =>
    let size : Except Fault (Nat × Bits) := do
      let (size, bits) ← number 16 (align bits)
      let (check, bits) ← number 16 bits
      if size + check ≠ 0xffff then throw .corrupt
      return (size, bits)
    match size with
    | .error e => (out, .error e)
    | .ok (size, bits) => readBytes size out bits
  | .ok (1, bits) => coded (fixedBooks, bits)
  | .ok (2, bits) =>
    match readBooks bits with
    | .error e => (out, .error e)
    | .ok books => coded books
  | .ok _ => (out, .error .corrupt)

/-- Blocks up to the one that is marked as the last, at most `fuel` of them. A corrupt block gives
no bytes; of one that is cut off, those count that came. -/
def readBlocks : (fuel : Nat) → Array UInt8 → Bits → Progress
  | _, out, [] => (out, .error .cut)
  | 0, out, _ => (out, .error .cut)
  | fuel + 1, out, last :: bits =>
    match readBlock out bits with
    | (_, .error .corrupt) => (out, .error .corrupt)
    | (out, .error .cut) => (out, .error .cut)
    | (out, .ok bits) => if last then (out, .ok bits) else readBlocks fuel out bits

/-- The decoded data, and the bytes behind it or why there are none. -/
def decode (data : Bytes) : Bytes × Except Fault Bytes :=
  let bits := bitsOf data
  let (out, result) := readBlocks bits.length #[] bits
  (out.toList, result.map fun rest => data.drop (data.length - rest.length / 8))

end ApiClient.Inflate
