import ArchiveExport.Text.Charset
import ArchiveExport.Text.Lines

/-!
# Script files

A script file is UTF-8 text, a byte order mark in front of it allowed. It is read in blocks, and
the lines that are complete after a block are carried out before the next block is read; octets
that spell no text therefore stop a script only where they are reached. Their position counts from
the start of the character that the block before left unfinished, or from the block itself.
-/

namespace ArchiveExport.Script

/-- The octets of a block. -/
def blockSize : Nat := 8192

/-- The byte order mark. -/
def mark : Bytes := [0xEF, 0xBB, 0xBF]

/-- What is known between two blocks: whether a mark may still follow, and the octets that are not
yet read as characters. -/
structure Pending where
  expectsMark : Bool := true
  octets : Bytes := []

/-- The blocks of data. -/
def blocks (bs : Bytes) : List Bytes :=
  if bs.length ≤ blockSize then
    if bs.isEmpty then [] else [bs]
  else
    bs.take blockSize :: blocks (bs.drop blockSize)
termination_by bs.length
decreasing_by
  simp only [List.length_drop, blockSize] at *
  omega

/-- Read the characters that are complete after a block. -/
def readBlock (p : Pending) (block : Bytes) : Except Text.Charset.Fault (List Char × Pending) :=
  let octets := p.octets ++ block
  if p.expectsMark ∧ octets.length < mark.length ∧ octets.isPrefixOf mark then
    .ok ([], { p with octets })
  else
    let octets := if p.expectsMark then Text.Charset.dropMark octets else octets
    match Text.Utf8.run 0 none [] octets with
    | .error fault => .error (Text.Charset.ofUtf8Fault fault)
    | .ok (cs, none) => .ok (cs, ⟨false, []⟩)
    | .ok (cs, some begun) => .ok (cs, ⟨false, octets.drop begun.position⟩)

/-- The fault of a character that the end of the data leaves unfinished. -/
def endFault (p : Pending) : Option Text.Charset.Fault :=
  if p.expectsMark then none
  else
    match Text.Charset.decodeUtf8 p.octets with
    | .ok _ => none
    | .error fault => some fault

/-- The characters of blocks, up to octets that spell none. -/
def readBlocks (p : Pending) : List Bytes → List Char × Option Text.Charset.Fault
  | [] => ([], endFault p)
  | block :: rest =>
    match readBlock p block with
    | .error fault => ([], some fault)
    | .ok (cs, p) =>
      let (more, fault) := readBlocks p rest
      (cs ++ more, fault)

/-- The lines of a script file, up to octets that spell no text, and these. A carriage return at
the end of a block does not end a line before the next block is read. -/
def linesOf (bs : Bytes) : List String × Option Text.Charset.Fault :=
  let (cs, fault) := readBlocks {} (blocks bs)
  if fault.isSome then
    let known := if cs.getLast? = some '\r' then cs.dropLast else cs
    ((Text.splitLines known).1, fault)
  else
    let (lines, last) := Text.splitLines cs
    (if last = "" then lines else lines ++ [last], none)

end ArchiveExport.Script
