import ArchiveExport.Bytes.Basic
import ArchiveExport.Checksum.Redundancy
import ArchiveExport.Deflate.Code

/-!
# Inflating deflate streams

A deflate stream is a sequence of blocks, stored or coded with prefix codes; a zlib stream wraps
one with a header and a sum of the inflated data. Octets behind the end of a stream are ignored.
-/

namespace ArchiveExport.Deflate

/-- What makes a stream unreadable. -/
inductive Fault where
  | truncated
  | headerCheck
  | method
  | windowSize
  | dictionary
  | blockType
  | storedLengths
  | tooManySymbols
  | lengthCodes
  | lengthRepeat
  | noEndOfBlock
  | literalCode
  | distanceCode
  | literalWord
  | distanceWord
  | farDistance
  | dataCheck
  deriving DecidableEq, Repr

/-- The message of a fault. -/
def Fault.message : Fault → String
  | .truncated => "Error -5 while decompressing data: incomplete or truncated stream"
  | .dictionary => "Error 2 while decompressing data"
  | .headerCheck => invalid "incorrect header check"
  | .method => invalid "unknown compression method"
  | .windowSize => invalid "invalid window size"
  | .blockType => invalid "invalid block type"
  | .storedLengths => invalid "invalid stored block lengths"
  | .tooManySymbols => invalid "too many length or distance symbols"
  | .lengthCodes => invalid "invalid code lengths set"
  | .lengthRepeat => invalid "invalid bit length repeat"
  | .noEndOfBlock => invalid "invalid code -- missing end-of-block"
  | .literalCode => invalid "invalid literal/lengths set"
  | .distanceCode => invalid "invalid distances set"
  | .literalWord => invalid "invalid literal/length code"
  | .distanceWord => invalid "invalid distance code"
  | .farDistance => invalid "invalid distance too far back"
  | .dataCheck => invalid "incorrect data check"
where
  invalid (what : String) : String := "Error -3 while decompressing data: " ++ what

/-- Give up with a fault unless something holds. -/
def require (holds : Bool) (fault : Fault) : Except Fault Unit :=
  if holds then .ok () else .error fault

/-- The bits of an octet, the lowest first. -/
def bitsOf (b : UInt8) : List Bool :=
  (List.range 8).map fun i => b.toNat.testBit i

/-- The number that bits spell, the lowest first. -/
def bitsValue : List Bool → Nat
  | [] => 0
  | b :: rest => (if b then 1 else 0) + 2 * bitsValue rest

/-- The number in the first `n` bits, and the bits behind them. -/
def take (n : Nat) (bits : List Bool) : Except Fault (Nat × List Bool) :=
  let field := bits.take n
  if field.length < n then .error .truncated else .ok (bitsValue field, bits.drop n)

/-- The bits from the next octet on. -/
def align (bits : List Bool) : List Bool :=
  bits.drop (bits.length % 8)

/-- The octets in the first `n` groups of eight bits, put behind `out`. -/
def takeOctets : Nat → List Bool → Array UInt8 → Except Fault (Array UInt8 × List Bool)
  | 0, bits, out => .ok (out, bits)
  | n + 1, bits, out =>
    match take 8 bits with
    | .error fault => .error fault
    | .ok (octet, rest) => takeOctets n rest (out.push (UInt8.ofNat octet))

/-- Base and number of extra bits of the copy lengths, by symbol from 257 on. It stays closed in
proofs, since looking an unknown symbol up in it would count down from 257. -/
@[irreducible]
def lengthTable : List (Nat × Nat) :=
  [(3, 0), (4, 0), (5, 0), (6, 0), (7, 0), (8, 0), (9, 0), (10, 0), (11, 1), (13, 1), (15, 1),
    (17, 1), (19, 2), (23, 2), (27, 2), (31, 2), (35, 3), (43, 3), (51, 3), (59, 3), (67, 4),
    (83, 4), (99, 4), (115, 4), (131, 5), (163, 5), (195, 5), (227, 5), (258, 0)]

/-- Base and number of extra bits of the copy distances, by symbol. -/
def distanceTable : List (Nat × Nat) :=
  [(1, 0), (2, 0), (3, 0), (4, 0), (5, 1), (7, 1), (9, 2), (13, 2), (17, 3), (25, 3), (33, 4),
    (49, 4), (65, 5), (97, 5), (129, 6), (193, 6), (257, 7), (385, 7), (513, 8), (769, 8),
    (1025, 9), (1537, 9), (2049, 10), (3073, 10), (4097, 11), (6145, 11), (8193, 12), (12289, 12),
    (16385, 13), (24577, 13)]

/-- Append `n` octets, each a copy of the one `distance` before it. -/
def copyBack (distance : Nat) : Nat → Array UInt8 → Array UInt8
  | 0, out => out
  | n + 1, out => copyBack distance n (out.push (out.getD (out.size - distance) 0))

/-- Read a copy of `length` octets and append it. -/
def readCopy (distances : Code) (length : Nat) (bits : List Bool) (out : Array UInt8) :
    Except Fault (Array UInt8 × List Bool) :=
  match distances.read bits with
  | .endOfBits => .error .truncated
  | .unknown => .error .distanceWord
  | .symbol s rest =>
    match distanceTable[s]? with
    | none => .error .distanceWord
    | some (base, extra) =>
      match take extra rest with
      | .error fault => .error fault
      | .ok (more, rest) =>
        if out.size < base + more then .error .farDistance
        else .ok (copyBack (base + more) length out, rest)

/-- Read the rest of the copy that a symbol from 257 on begins, and append it. -/
def readSymbolCopy (distances : Code) (s : Nat) (bits : List Bool) (out : Array UInt8) :
    Except Fault (Array UInt8 × List Bool) :=
  match lengthTable[s - 257]? with
  | none => .error .literalWord
  | some (base, extra) =>
    match take extra bits with
    | .error fault => .error fault
    | .ok (more, rest) => readCopy distances (base + more) rest out

/-- Read the symbols of a block up to its end. Every symbol takes a bit, so `fuel` bounds them. -/
def readSymbols (literals distances : Code) :
    Nat → List Bool → Array UInt8 → Except Fault (Array UInt8 × List Bool)
  | 0, _, _ => .error .truncated
  | fuel + 1, bits, out =>
    match literals.read bits with
    | .endOfBits => .error .truncated
    | .unknown => .error .literalWord
    | .symbol s rest =>
      if s < 256 then readSymbols literals distances fuel rest (out.push (UInt8.ofNat s))
      else if s = 256 then .ok (out, rest)
      else
        match readSymbolCopy distances s rest out with
        | .error fault => .error fault
        | .ok (out, rest) => readSymbols literals distances fuel rest out

/-- The code of literals and lengths that needs no description. -/
def fixedLiterals : Code :=
  .ofLengths (List.replicate 144 8 ++ List.replicate 112 9 ++ List.replicate 24 7 ++
    List.replicate 8 8)

/-- The code of distances that needs no description. -/
def fixedDistances : Code :=
  .ofLengths (List.replicate 32 5)

/-- The order in which the lengths of the code for lengths are stored. -/
def lengthOrder : List Nat :=
  [16, 17, 18, 0, 8, 7, 9, 6, 10, 5, 11, 4, 12, 3, 13, 2, 14, 1, 15]

/-- Read `n` numbers of three bits. -/
def readTriples : Nat → List Bool → Except Fault (List Nat × List Bool)
  | 0, bits => .ok ([], bits)
  | n + 1, bits =>
    match take 3 bits with
    | .error fault => .error fault
    | .ok (x, rest) =>
      match readTriples n rest with
      | .error fault => .error fault
      | .ok (xs, rest) => .ok (x :: xs, rest)

/-- The word at the front of the bits in the code for lengths; one without any word stands for a
length of zero. -/
def readLengthSymbol (code : Code) (bits : List Bool) : Code.Outcome :=
  if code.symbols.isEmpty then
    match bits with
    | [] => .endOfBits
    | _ :: rest => .symbol 0 rest
  else code.read bits

/-- Put copies of a length in front of those read: `base` copies and as many more as the next
`extra` bits say, up to `total` lengths. -/
def repeatLength (total value base extra : Nat) (done : List Nat) (bits : List Bool) :
    Except Fault (List Nat × List Bool) :=
  match take extra bits with
  | .error fault => .error fault
  | .ok (more, rest) =>
    if total < done.length + base + more then .error .lengthRepeat
    else .ok (List.replicate (base + more) value ++ done, rest)

/-- Put the lengths that a symbol stands for in front of those read. -/
def addLengths (total s : Nat) (done : List Nat) (bits : List Bool) :
    Except Fault (List Nat × List Bool) :=
  if s < 16 then .ok (s :: done, bits)
  else if s = 16 then
    match done with
    | [] =>
      match take 2 bits with
      | .error fault => .error fault
      | .ok _ => .error .lengthRepeat
    | last :: _ => repeatLength total last 3 2 done bits
  else if s = 17 then repeatLength total 0 3 3 done bits
  else repeatLength total 0 11 7 done bits

/-- Read code lengths until there are `total`; `done` holds those read, the last one first. -/
def readLengths (code : Code) (total : Nat) :
    Nat → List Nat → List Bool → Except Fault (List Nat × List Bool)
  | 0, _, _ => .error .truncated
  | fuel + 1, done, bits =>
    if total ≤ done.length then .ok (done.reverse, bits)
    else
      match readLengthSymbol code bits with
      | .endOfBits => .error .truncated
      | .unknown => .error .lengthCodes
      | .symbol s rest =>
        match addLengths total s done rest with
        | .error fault => .error fault
        | .ok (done, rest) => readLengths code total fuel done rest

/-- Read the description of the two codes of a block. -/
def readCodes (bits : List Bool) : Except Fault (Code × Code × List Bool) := do
  let (header, bits) ← take 14 bits
  let literals := header % 32 + 257
  let distances := header / 32 % 32 + 1
  let triples := header / 1024 + 4
  require (literals ≤ 286 && distances ≤ 30) .tooManySymbols
  let (stored, bits) ← readTriples triples bits
  let lengthLengths := (List.range 19).map fun s =>
    (((lengthOrder.zip stored).find? fun e => e.1 = s).map Prod.snd).getD 0
  require (Code.isUsable false lengthLengths) .lengthCodes
  let total := literals + distances
  let (lengths, bits) ← readLengths (.ofLengths lengthLengths) total (bits.length + 1) [] bits
  require (lengths[256]? ≠ some 0) .noEndOfBlock
  require (Code.isUsable true (lengths.take literals)) .literalCode
  require (Code.isUsable true (lengths.drop literals)) .distanceCode
  return (.ofLengths (lengths.take literals), .ofLengths (lengths.drop literals), bits)

/-- Read a block that stores its octets as they are, from the next octet on. -/
def readStored (bits : List Bool) (out : Array UInt8) : Except Fault (Array UInt8 × List Bool) := do
  let (lengths, bits) ← take 32 (align bits)
  let length := lengths % 65536
  require (length + lengths / 65536 = 65535) .storedLengths
  takeOctets length bits out

/-- Read one block of a type behind its header. -/
def readBlock (type : Nat) (bits : List Bool) (out : Array UInt8) :
    Except Fault (Array UInt8 × List Bool) :=
  match type with
  | 0 => readStored bits out
  | 1 => readSymbols fixedLiterals fixedDistances (bits.length + 1) bits out
  | 2 => do
    let (literals, distances, bits) ← readCodes bits
    readSymbols literals distances (bits.length + 1) bits out
  | _ => .error .blockType

/-- Read blocks up to the last one. Every block takes three bits, so `fuel` bounds them. -/
def readBlocks : Nat → List Bool → Array UInt8 → Except Fault (Array UInt8 × List Bool)
  | 0, _, _ => .error .truncated
  | fuel + 1, bits, out => do
    let (header, bits) ← take 3 bits
    let (out, bits) ← readBlock (header / 2) bits out
    if header % 2 = 1 then return (out, bits) else readBlocks fuel bits out

/-- The data of a deflate stream, and the bits behind its end. -/
def inflateBits (bits : List Bool) : Except Fault (Bytes × List Bool) := do
  let (out, rest) ← readBlocks (bits.length + 1) bits #[]
  return (out.toList, rest)

/-- The data of a bare deflate stream. -/
def inflate (bs : Bytes) : Except Fault Bytes := do
  let (data, _) ← inflateBits (bs.flatMap bitsOf)
  return data

/-- The data of a zlib stream: a header of two octets, a deflate stream and the Adler-32 of the
data, its high octet first. -/
def inflateZlib (bs : Bytes) : Except Fault Bytes := do
  match bs with
  | method :: flags :: body =>
    require ((256 * method.toNat + flags.toNat) % 31 = 0) .headerCheck
    require (method.toNat % 16 = 8) .method
    require (method.toNat / 16 ≤ 7) .windowSize
    require (!flags.toNat.testBit 5) (if body.length < 4 then .truncated else .dictionary)
    let (data, rest) ← inflateBits (body.flatMap bitsOf)
    let (sum, _) ← takeOctets 4 (align rest) #[]
    require (Bytes.toNat sum.toList.reverse = Checksum.adler32 data) .dataCheck
    return data
  | _ => throw .truncated

/-- Append an octet string as stored blocks; the block is the last one where `last` is set. -/
def storedBlock (last : Bool) (piece : Bytes) : Bytes :=
  (if last then 1 else 0) :: Bytes.ofNat 2 piece.length ++
    Bytes.ofNat 2 (65535 - piece.length) ++ piece

/-- The stored blocks of the first `n + 1` pieces of 65535 octets. -/
def storedBlocks : Nat → Bytes → Bytes
  | 0, bs => storedBlock true bs
  | n + 1, bs => storedBlock false (bs.take 65535) ++ storedBlocks n (bs.drop 65535)

/-- A zlib stream that stores its data as it is. -/
def storeZlib (bs : Bytes) : Bytes :=
  [0x78, 0x01] ++ storedBlocks (bs.length / 65535) bs ++
    (Bytes.ofNat 4 (Checksum.adler32 bs)).reverse

end ArchiveExport.Deflate
