import ScriptLang.Failure
import ScriptLang.Text.Utf8

/-!
# Archives

An archive ends with a record that tells where its directory lies; the directory lists the members
with their names, checksums and places. A member lies behind a header that repeats its name, stored
as it is or deflated. Numbers are written least byte first.

Deflated bytes are a sequence of bits, the least bit of each byte first. They are cut into blocks,
in which numbers of two prefix codes stand for bytes and for copies of what came before.
-/

namespace ScriptLang.Archive

/-! ### Deflated bytes -/

def bitsOf (bytes : List Nat) : List Bool :=
  bytes.flatMap fun b => (List.range 8).map fun i => b.testBit i

/-- The number in the first `n` bits, least bit first, and the bits after them. -/
def takeBits? : (n : Nat) → List Bool → Option (Nat × List Bool)
  | 0, bits => some (0, bits)
  | _ + 1, [] => none
  | n + 1, b :: bits => (takeBits? n bits).map fun (k, rest) => (2 * k + b.toNat, rest)

/-- A prefix code: how many words there are of each length, and what the words stand for, in the
order of the words. -/
structure WordCode where
  counts : List Nat
  symbols : Array Nat

/-- The code in which number `i` has a word of the `i`th length; those of length zero have none. -/
def WordCode.ofLengths (lengths : List Nat) : WordCode :=
  let ofLength (n : Nat) := (lengths.zipIdx.filter fun e => e.1 == n + 1).map Prod.snd
  let words := (List.range 15).map ofLength
  ⟨words.map List.length, words.flatten.toArray⟩

/-- What the first word stands for, and the bits after it. Words of a length follow each other as
numbers from `first` on; `word` is what was read and `index` the place of the first of them. -/
def WordCode.readFrom? (symbols : Array Nat) : (counts : List Nat) → (word first index : Nat) →
    List Bool → Option (Nat × List Bool)
  | count :: counts, word, first, index, b :: bits =>
    let word := word + b.toNat
    if word < first + count then (symbols[index + word - first]?).map fun s => (s, bits)
    else readFrom? symbols counts (2 * word) (2 * (first + count)) (index + count) bits
  | _, _, _, _, _ => none

def WordCode.read? (p : WordCode) (bits : List Bool) : Option (Nat × List Bool) :=
  readFrom? p.symbols p.counts 0 0 0 bits

/-- The least numbers that symbols stand for: each has one more extra bit than the one `step` before
it, and the first `2 * step` have none. -/
def bases (step least : Nat) (n : Nat) : Nat × Nat :=
  if n < 2 * step then (least + n, 0)
  else
    let extra := n / step - 1
    (least + Nat.pow 2 extra * (step + n % step), extra)

def lengthBase (n : Nat) : Nat × Nat := if n == 28 then (258, 0) else bases 4 3 n

def distanceBase (n : Nat) : Nat × Nat := bases 2 1 n

/-- Copies bytes that were written `distance` bytes ago. -/
def copyBack (distance : Nat) : (length : Nat) → Array Nat → Array Nat
  | 0, out => out
  | length + 1, out => copyBack distance length (out.push (out.getD (out.size - distance) 0))

def inflateWords (lengths distances : WordCode) : (fuel : Nat) → Array Nat → List Bool →
    Option (Array Nat × List Bool)
  | 0, _, _ => none
  | fuel + 1, out, bits => do
    let (symbol, bits) ← lengths.read? bits
    if symbol < 256 then inflateWords lengths distances fuel (out.push symbol) bits
    else if symbol == 256 then some (out, bits)
    else
      let (length, extra) := lengthBase (symbol - 257)
      let (more, bits) ← takeBits? extra bits
      let (symbol, bits) ← distances.read? bits
      let (distance, extra) := distanceBase symbol
      let (further, bits) ← takeBits? extra bits
      if out.size < distance + further then none
      else
        let out := copyBack (distance + further) (length + more) out
        inflateWords lengths distances fuel out bits

def fixedCodes : WordCode × WordCode :=
  (.ofLengths (List.replicate 144 8 ++ List.replicate 112 9 ++ List.replicate 24 7 ++
    List.replicate 8 8), .ofLengths (List.replicate 30 5))

/-- The lengths of the words of a block's own codes, until there are `n` of them. -/
def readLengths (code : WordCode) (n : Nat) : (fuel : Nat) → List Nat → List Bool →
    Option (List Nat × List Bool)
  | 0, _, _ => none
  | fuel + 1, lengths, bits =>
    if n ≤ lengths.length then some (lengths, bits)
    else do
      let (symbol, bits) ← code.read? bits
      if symbol < 16 then readLengths code n fuel (lengths ++ [symbol]) bits
      else
        let (least, width) :=
          if symbol == 16 then (3, 2) else if symbol == 17 then (3, 3) else (11, 7)
        let (more, bits) ← takeBits? width bits
        let again := if symbol == 16 then lengths.getLastD 0 else 0
        readLengths code n fuel (lengths ++ List.replicate (least + more) again) bits

def readCodes (bits : List Bool) : Option ((WordCode × WordCode) × List Bool) := do
  let (literals, bits) ← takeBits? 5 bits
  let (distances, bits) ← takeBits? 5 bits
  let (count, bits) ← takeBits? 4 bits
  let order := [16, 17, 18, 0, 8, 7, 9, 6, 10, 5, 11, 4, 12, 3, 13, 2, 14, 1, 15].take (count + 4)
  let (given, bits) ← order.foldlM (fun (t, bits) i => do
    let (n, bits) ← takeBits? 3 bits
    pure ((i, n) :: t, bits)) (([] : List (Nat × Nat)), bits)
  let code := WordCode.ofLengths ((List.range 19).map fun i => (given.lookup i).getD 0)
  let total := literals + 257 + distances + 1
  let (lengths, bits) ← readLengths code total (total + 1) [] bits
  let (first, second) := lengths.splitAt (literals + 257)
  pure ((.ofLengths first, .ofLengths second), bits)

/-- The bytes of deflated blocks, behind those that came before. -/
def inflateFrom : (fuel : Nat) → Array Nat → List Bool → Option (Array Nat)
  | 0, _, _ => none
  | fuel + 1, out, bits => do
    let (isLast, bits) ← takeBits? 1 bits
    let (kind, bits) ← takeBits? 2 bits
    let (out, bits) ← match kind with
      | 0 => do
        -- a stored block starts with the next whole byte
        let (length, bits) ← takeBits? 16 (bits.drop (bits.length % 8))
        let (_, bits) ← takeBits? 16 bits
        (List.range length).foldlM (fun (out, bits) _ => do
          let (b, bits) ← takeBits? 8 bits
          pure (out.push b, bits)) (out, bits)
      | 1 => inflateWords fixedCodes.1 fixedCodes.2 (bits.length + 1) out bits
      | 2 => do
        let ((lengths, distances), bits) ← readCodes bits
        inflateWords lengths distances (bits.length + 1) out bits
      | _ => none
    if isLast == 1 then some out else inflateFrom fuel out bits

def inflate? (bytes : List Nat) : Option (List Nat) :=
  let bits := bitsOf bytes
  (inflateFrom (bits.length + 1) #[] bits).map Array.toList

/-! ### Members -/

structure Member where
  name : List Nat
  flags : Nat
  /-- How it is packed. -/
  method : Nat
  checksum : Nat
  /-- How long it is in the archive. -/
  packed : Nat
  size : Nat
  /-- Where its header starts. -/
  place : Int
  deriving DecidableEq, Repr

def number (bytes : List Nat) (place width : Nat) : Nat :=
  ((bytes.drop place).take width).foldr (fun b n => b + 256 * n) 0

private def mark (a b : Nat) : List Nat := [0x50, 0x4b, a, b]

def isMarked (bytes : List Nat) (place : Nat) (m : List Nat) : Bool :=
  (bytes.drop place).take 4 == m

def endLength : Nat := 22

/-- Where the record at the end starts: without a comment it has a fixed place, otherwise it is the
last one whose mark is found near the end. -/
def endPlace? (bytes : List Nat) : Option Nat :=
  if bytes.length < endLength then none
  else
    let last := bytes.length - endLength
    if isMarked bytes last (mark 5 6) && (bytes.drop (bytes.length - 2)) == [0, 0] then some last
    else
      let first := last - 65536
      let hits := (List.range (bytes.length - first)).filter fun i =>
        isMarked bytes (first + i) (mark 5 6)
      match hits.getLast? with
      | some i => if first + i ≤ last then some (first + i) else none
      | none => none

/-- The members that the rest of a directory lists; places are moved by `shift`. -/
def membersFrom (shift : Int) : (fuel left : Nat) → List Nat → Except Failure (List Member)
  | 0, _, _ => .ok []
  | _, 0, _ => .ok []
  | fuel + 1, left, bytes =>
    if bytes.length < 46 then .error (.other .badArchive "Truncated central directory")
    else if !isMarked bytes 0 (mark 1 2) then
      .error (.other .badArchive "Bad magic number for central directory")
    else do
      let nameLength := number bytes 28 2
      let length := 46 + nameLength + number bytes 30 2 + number bytes 32 2
      let rest ← membersFrom shift fuel (left - length) (bytes.drop length)
      .ok (⟨(bytes.drop 46).take nameLength, number bytes 8 2, number bytes 10 2,
        number bytes 16 4, number bytes 20 4, number bytes 24 4,
        (number bytes 42 4 : Nat) + shift⟩ :: rest)

def members (bytes : List Nat) : Except Failure (List Member) :=
  match endPlace? bytes with
  | none => .error .notAnArchive
  | some place =>
    let size := number bytes (place + 12) 4
    let start : Int := (place : Int) - size
    if start < 0 then .error (.other .badArchive "Bad offset for central directory")
    else
      let shift := start - (number bytes (place + 16) 4 : Nat)
      membersFrom shift (size + 1) size ((bytes.drop start.toNat).take size)

def checksumStep (c : UInt32) : UInt32 :=
  if c &&& 1 == 1 then (c >>> 1) ^^^ 0xedb88320 else c >>> 1

def checksum (bytes : List Nat) : Nat :=
  let crc := bytes.foldl (fun c b =>
    (List.range 8).foldl (fun c _ => checksumStep c) (c ^^^ b.toUInt32)) (0xffffffff : UInt32)
  (crc ^^^ 0xffffffff).toNat

def contents (bytes : List Nat) (m : Member) : Except Failure (List Nat) :=
  let header := bytes.drop m.place.toNat
  let shown := Text.quote (Text.ofBytes m.name)
  if header.length < 30 then .error (.other .badArchive "Truncated file header")
  else if !isMarked header 0 (mark 3 4) then
    .error (.other .badArchive "Bad magic number for file header")
  else
    let nameLength := number header 26 2
    let name := (header.drop 30).take nameLength
    if name != m.name then
      .error (.other .badArchive ("File name in directory " ++ shown ++ " and header b" ++
        Text.quote (Text.ofBytes name) ++ " differ."))
    else if m.flags.testBit 0 then
      .error (.other .execution ("File " ++ shown ++
        " is encrypted, password required for extraction"))
    else do
      let held := (header.drop (30 + nameLength + number header 28 2)).take m.packed
      if held.length < m.packed then .error (.other .endOfInput "")
      let data ← match m.method with
        | 0 => .ok held
        | 8 =>
          match inflate? held with
          | some data => .ok (data.take m.size)
          | none => .error (.other .badArchive "Error -3 while decompressing data")
        | _ => .error (.other .execution "That compression method is not supported")
      if checksum data != m.checksum then
        .error (.other .badArchive ("Bad CRC-32 for file " ++ shown))
      .ok data

/-- The contents of the member of a name, the last one if there are several. -/
def extract (bytes : List Nat) (name : String) : Except Failure (List Nat) := do
  let all ← members bytes
  match (all.filter fun m => m.name == Text.bytes name).getLast? with
  | some m => contents bytes m
  | none => .error (.archiveItem name)

end ScriptLang.Archive
