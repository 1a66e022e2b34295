import ArchiveExport.Bytes.Basic

/-!
# MD5

The digest of a byte string: sixteen octets, shown as 32 hexadecimal digits.
-/

namespace ArchiveExport.Checksum.Md5

/-- The amounts by which the steps rotate, four for each round. -/
def rotations : Array UInt32 :=
  #[7, 12, 17, 22, 5, 9, 14, 20, 4, 11, 16, 23, 6, 10, 15, 21]

/-- The constants that the steps add. -/
def constants : Array UInt32 :=
  #[0xd76aa478, 0xe8c7b756, 0x242070db, 0xc1bdceee, 0xf57c0faf, 0x4787c62a, 0xa8304613, 0xfd469501,
    0x698098d8, 0x8b44f7af, 0xffff5bb1, 0x895cd7be, 0x6b901122, 0xfd987193, 0xa679438e, 0x49b40821,
    0xf61e2562, 0xc040b340, 0x265e5a51, 0xe9b6c7aa, 0xd62f105d, 0x02441453, 0xd8a1e681, 0xe7d3fbc8,
    0x21e1cde6, 0xc33707d6, 0xf4d50d87, 0x455a14ed, 0xa9e3e905, 0xfcefa3f8, 0x676f02d9, 0x8d2a4c8a,
    0xfffa3942, 0x8771f681, 0x6d9d6122, 0xfde5380c, 0xa4beea44, 0x4bdecfa9, 0xf6bb4b60, 0xbebfbc70,
    0x289b7ec6, 0xeaa127fa, 0xd4ef3085, 0x04881d05, 0xd9d4d039, 0xe6db99e5, 0x1fa27cf8, 0xc4ac5665,
    0xf4292244, 0x432aff97, 0xab9423a7, 0xfc93a039, 0x655b59c3, 0x8f0ccc92, 0xffeff47d, 0x85845dd1,
    0x6fa87e4f, 0xfe2ce6e0, 0xa3014314, 0x4e0811a1, 0xf7537e82, 0xbd3af235, 0x2ad7d2bb, 0xeb86d391]

/-- The four words carried from block to block. -/
structure State where
  a : UInt32 := 0x67452301
  b : UInt32 := 0xefcdab89
  c : UInt32 := 0x98badcfe
  d : UInt32 := 0x10325476

/-- The word with its bits rotated to the left. -/
def rotate (x amount : UInt32) : UInt32 :=
  (x <<< amount) ||| (x >>> (32 - amount))

/-- Step `i` on the sixteen words of a block. -/
def step (words : Array UInt32) (s : State) (i : Nat) : State :=
  let round := i / 16
  let mixed : UInt32 :=
    match round with
    | 0 => (s.b &&& s.c) ||| (~~~s.b &&& s.d)
    | 1 => (s.d &&& s.b) ||| (~~~s.d &&& s.c)
    | 2 => s.b ^^^ s.c ^^^ s.d
    | _ => s.c ^^^ (s.b ||| ~~~s.d)
  let index : Nat :=
    match round with
    | 0 => i
    | 1 => (5 * i + 1) % 16
    | 2 => (3 * i + 5) % 16
    | _ => 7 * i % 16
  let sum := s.a + mixed + constants.getD i 0 + words.getD index 0
  ⟨s.d, s.b + rotate sum (rotations.getD (4 * round + i % 4) 0), s.b, s.c⟩

/-- The words of a block of 64 octets. -/
def blockWords : Nat → Bytes → Array UInt32 → Array UInt32
  | 0, _, words => words
  | n + 1, b₀ :: b₁ :: b₂ :: b₃ :: rest, words =>
    blockWords n rest <| words.push <|
      b₀.toUInt32 ||| (b₁.toUInt32 <<< 8) ||| (b₂.toUInt32 <<< 16) ||| (b₃.toUInt32 <<< 24)
  | _, _, words => words

/-- The state after one more block. -/
def absorb (s : State) (block : Bytes) : State :=
  let words := blockWords 16 block #[]
  let t := (List.range 64).foldl (step words) s
  ⟨s.a + t.a, s.b + t.b, s.c + t.c, s.d + t.d⟩

/-- Fold the first `n` blocks of octets into a state. -/
def absorbBlocks : Nat → State → Bytes → State
  | 0, s, _ => s
  | n + 1, s, bs => absorbBlocks n (absorb s (bs.take 64)) (bs.drop 64)

/-- The octets followed by a one bit, zeros and their number of bits, up to a multiple of 64. -/
def pad (bs : Bytes) : Bytes :=
  let zeros := (119 - bs.length % 64) % 64
  bs ++ 0x80 :: List.replicate zeros 0 ++ Bytes.ofNat 8 (8 * bs.length)

/-- The sixteen octets of the digest. -/
def digest (bs : Bytes) : Bytes :=
  let padded := pad bs
  let s := absorbBlocks (padded.length / 64) {} padded
  [s.a, s.b, s.c, s.d].flatMap fun word => Bytes.ofNat 4 word.toNat

/-- The digest in hexadecimal digits. -/
def hex (bs : Bytes) : String :=
  Bytes.toHex (digest bs)

end ArchiveExport.Checksum.Md5
