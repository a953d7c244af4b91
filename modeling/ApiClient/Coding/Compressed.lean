import ApiClient.Coding.Inflate

/-!
# ApiClient.Coding.Compressed

The formats in which bodies are compressed: deflate data between a head and a check.

Design points:

* The head says nothing that decoding needs, apart from where the data starts.
* The check is over the decoded bytes. Data with a wrong check is corrupt.
* Some senders leave the head of the zlib format away. A reader that allows for it takes data
  without a head for bare deflate data.
* What stands behind the check is given back. It is for the reader to say whether that may be
  anything.
-/

namespace ApiClient.Compressed

open Inflate (Fault)

/-- Decoded data, why it is not complete, and what stands behind it. -/
structure Result where
  /-- The bytes that were decoded. -/
  bytes : Bytes
  /-- What stopped the decoding. -/
  fault : Option Fault
  /-- The bytes behind the end. -/
  rest : Bytes := []

/-- The result that nothing was decoded. -/
def Result.failed (fault : Fault) : Result := ⟨[], some fault, []⟩

/-- A number of the given bytes, the lowest first. -/
def littleEndian (bytes : Bytes) : Nat := bytes.foldr (fun b n => b.toNat + 256 * n) 0

/-- One bit of the cyclic redundancy check. -/
def crcBit (c : UInt32) : UInt32 := if c &&& 1 = 1 then (c >>> 1) ^^^ 0xedb88320 else c >>> 1

/-- One byte of the cyclic redundancy check. -/
def crcByte (c : UInt32) (b : UInt8) : UInt32 :=
  (List.range 8).foldl (fun c _ => crcBit c) (c ^^^ b.toUInt32)

/-- The cyclic redundancy check of bytes. -/
def crc (bytes : Bytes) : Nat := (bytes.foldl crcByte 0xffffffff ^^^ 0xffffffff).toNat

/-- The two running sums over bytes. -/
def sums (bytes : Bytes) : Nat :=
  let (a, b) := bytes.foldl (fun (a, b) x =>
    ((a + x.toNat) % 65521, (b + a + x.toNat) % 65521)) (1, 0)
  65536 * b + a

/-- Decodes deflate data and compares `size` bytes behind it with what they should be. -/
def checked (size : Nat) (check : Bytes → Bytes) (data : Bytes) : Result :=
  match Inflate.decode data with
  | (bytes, .error fault) => ⟨bytes, some fault, []⟩
  | (bytes, .ok rest) =>
    let found := rest.take size
    if found.length < size then ⟨bytes, some .cut, []⟩
    else if found = check bytes then ⟨bytes, none, rest.drop size⟩
    else ⟨bytes, some .corrupt, []⟩

/-- The bytes of a number, the lowest first. -/
def toLittleEndian : Nat → Nat → Bytes
  | 0, _ => []
  | size + 1, n => (n % 256).toUInt8 :: toLittleEndian size (n / 256)

/-! ## The gzip format -/

/-- Drops bytes, if there are so many. -/
def skip (n : Nat) (data : Bytes) : Except Fault Bytes :=
  if data.length < n then .error .cut else .ok (data.drop n)

/-- Drops a text with a zero byte at its end. -/
def skipText (data : Bytes) : Except Fault Bytes :=
  match data.dropWhile (· ≠ 0) with
  | _ :: rest => .ok rest
  | [] => .error .cut

/-- The data behind the head of the gzip format. A strict reader refuses flags without a meaning and
compares the check of the head. -/
def gzipData (isStrict : Bool) (data : Bytes) : Except Fault Bytes := do
  match data with
  | 0x1f :: 0x8b :: 8 :: flags :: rest =>
    let has (bit : Nat) : Bool := flags.toNat.testBit bit
    if isStrict && 0x20 ≤ flags then throw .corrupt
    let rest ← skip 6 rest
    let rest ← if has 2 then (skip 2 rest).bind (skip (littleEndian (rest.take 2))) else .ok rest
    let rest ← if has 3 then skipText rest else .ok rest
    let rest ← if has 4 then skipText rest else .ok rest
    let behind ← if has 1 then skip 2 rest else .ok rest
    let head := data.take (data.length - rest.length)
    if isStrict && has 1 && rest.take 2 != toLittleEndian 2 (crc head) then throw .corrupt
    return behind
  | _ => if data.length < 4 then .error .cut else .error .corrupt

/-- Decodes the gzip format. -/
def gzip (isStrict : Bool) (data : Bytes) : Result :=
  match gzipData isStrict data with
  | .ok data =>
    checked 8 (fun bytes => toLittleEndian 4 (crc bytes) ++ toLittleEndian 4 bytes.length) data
  | .error fault => .failed fault

/-! ## The zlib format -/

/-- Whether data has a head of the zlib format: a method, a window of at most 32 kilobytes, and a
number that 31 divides. -/
def hasZlibHead : Bytes → Bool
  | a :: b :: _ =>
    a.toNat % 16 == 8 && a.toNat / 16 ≤ 7 && (256 * a.toNat + b.toNat) % 31 == 0
  | _ => false

/-- Whether the head says that data is decoded with a dictionary, which is not known. -/
def needsDictionary (data : Bytes) : Bool :=
  hasZlibHead data && (data.drop 1).head?.any (·.toNat.testBit 5)

/-- Decodes the zlib format. -/
def zlib (data : Bytes) : Result :=
  if data.length < 2 then .failed .cut
  else if !hasZlibHead data then .failed .corrupt
  else if needsDictionary data then .failed (if data.length < 6 then .cut else .corrupt)
  else checked 4 (fun bytes => (toLittleEndian 4 (sums bytes)).reverse) (data.drop 2)

/-- The greatest number of bytes that may stand behind bare deflate data. -/
def surplus : Nat := 4

/-- Decodes the zlib format, or bare deflate data with a few bytes behind it. -/
def deflate (data : Bytes) : Result :=
  let result := zlib data
  if result.bytes.isEmpty && result.fault == some .corrupt && !needsDictionary data then
    let bare := checked 0 (fun _ => []) data
    { bare with rest := bare.rest.drop surplus }
  else result

/-- Decodes the gzip format or the zlib format, whichever the data starts like. -/
def detected (data : Bytes) : Result :=
  if data.take 2 = [0x1f, 0x8b] then gzip true data else zlib data

end ApiClient.Compressed
