/-!
# Prefix codes of a deflate stream

A code is given by the length of the word of each symbol. Words of one length are consecutive
numbers in the order of their symbols, and shorter words come before longer ones.
-/

namespace ArchiveExport.Deflate

/-- A prefix code: how many words each length from one to fifteen has, and the symbols in the
order of their words. -/
structure Code where
  counts : List Nat
  symbols : Array Nat

namespace Code

/-- The greatest length of a word. -/
def maxLength : Nat := 15

/-- The number of words of each length from one on. -/
def countLengths (lengths : List Nat) : List Nat :=
  (List.range maxLength).map fun k => lengths.count (k + 1)

/-- The symbols sorted by length of their words, symbols without a word left out. -/
def sortSymbols (lengths : List Nat) : Array Nat :=
  let indexed := lengths.zipIdx
  let ofLength (k : Nat) : List Nat := (indexed.filter fun e => e.1 = k + 1).map Prod.snd
  ((List.range maxLength).flatMap ofLength).toArray

/-- The code of a list of lengths. -/
def ofLengths (lengths : List Nat) : Code :=
  ⟨countLengths lengths, sortSymbols lengths⟩

/-- The number of words of the greatest length still free, or none when words are wanting. -/
def spare : List Nat → Nat → Option Nat
  | [], left => some left
  | count :: rest, left =>
    let doubled := 2 * left
    if doubled < count then none else spare rest (doubled - count)

/-- Whether lengths describe a code that can be used: words for all bits, or no words at all, or,
where `lone` allows it, a single word of one bit. -/
def isUsable (lone : Bool) (lengths : List Nat) : Bool :=
  let used := lengths.filter (· ≠ 0)
  match spare (countLengths lengths) 1 with
  | none => false
  | some 0 => true
  | some _ => used.isEmpty || (lone && used.all (· = 1))

/-- What reading a word gives. -/
inductive Outcome where
  | symbol (s : Nat) (rest : List Bool)
  /-- No symbol has the word. -/
  | unknown
  /-- The bits end inside the word. -/
  | endOfBits

/-- Read a word bit by bit: `code` holds its bits so far, `first` the first word of the length and
`index` the place of that word's symbol. -/
def readFrom (symbols : Array Nat) : List Nat → Nat → Nat → Nat → List Bool → Outcome
  | [], _, _, _, _ => .unknown
  | _ :: _, _, _, _, [] => .endOfBits
  | count :: counts, code, first, index, bit :: rest =>
    let code := code + if bit then 1 else 0
    if code < first + count then
      match symbols[index + (code - first)]? with
      | some s => .symbol s rest
      | none => .unknown
    else
      readFrom symbols counts (2 * code) (2 * (first + count)) (index + count) rest

/-- Read the word at the front of the bits. A code without any word refuses at the first bit, and
one with a single word as soon as the bit differs. -/
def read (code : Code) (bits : List Bool) : Outcome :=
  if code.symbols.size ≤ 1 then
    match bits with
    | [] => .endOfBits
    | bit :: rest =>
      match code.symbols[0]? with
      | some s => if bit then .unknown else .symbol s rest
      | none => .unknown
  else
    readFrom code.symbols code.counts 0 0 0 bits

end Code

end ArchiveExport.Deflate
