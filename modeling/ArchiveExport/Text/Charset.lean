import ArchiveExport.Text.Basic
import ArchiveExport.Text.EucKr
import ArchiveExport.Text.Quoted
import ArchiveExport.Text.Utf8

/-!
# Character sets

The encodings in which a text entry may be stored, chosen by name. Reading is strict: octets that
spell no text are a fault that names their place. Besides those that are spelled out here a registry
may have others, of which nothing else is known.
-/

namespace ArchiveExport.Text

/-- An encoding of text. -/
inductive Charset where
  | utf8
  /-- UTF-8 after an optional byte order mark. -/
  | utf8Marked
  | ascii
  | latin1
  | windows1252
  | utf16le
  | eucKr
  deriving DecidableEq, Repr

namespace Charset

/-- Why octets or characters cannot be converted. -/
inductive Reason where
  | invalidStart
  | invalidContinuation
  | endOfData
  | notAscii
  | notLatin
  | undefinedCell
  | truncatedUnit
  | unpairedHigh
  | unpairedLow
  | illegalSequence
  | incompleteSequence
  deriving DecidableEq, Repr

/-- The words for a reason. -/
def Reason.message : Reason → String
  | .invalidStart => "invalid start byte"
  | .invalidContinuation => "invalid continuation byte"
  | .endOfData => "unexpected end of data"
  | .notAscii => "ordinal not in range(128)"
  | .notLatin => "ordinal not in range(256)"
  | .undefinedCell => "character maps to <undefined>"
  | .truncatedUnit => "truncated data"
  | .unpairedHigh => "illegal UTF-16 surrogate"
  | .unpairedLow => "illegal encoding"
  | .illegalSequence => "illegal multibyte sequence"
  | .incompleteSequence => "incomplete multibyte sequence"

/-- A conversion that failed. -/
inductive Fault where
  /-- No encoding has the name. -/
  | unknown (name : String)
  /-- The name holds a NUL. -/
  | nulInName
  /-- `width` octets from `position` on spell no text; `first` is the first of them. -/
  | decoding (charset : Charset) (position width : Nat) (first : UInt8) (reason : Reason)
  /-- `width` characters from `position` on have no octets; `first` is the first of them. -/
  | encoding (charset : Charset) (position width : Nat) (first : Char) (reason : Reason)
  /-- The fault of another encoding, in its own words. -/
  | other (message : String)
  deriving DecidableEq, Repr

/-- The name of an encoding in messages. -/
def label : Charset → String
  | .utf8 | .utf8Marked => "utf-8"
  | .ascii => "ascii"
  | .latin1 => "latin-1"
  | .windows1252 => "charmap"
  | .utf16le => "utf-16-le"
  | .eucKr => "euc_kr"

/-- The two digits of an octet after `0x`. -/
def hexByte (b : UInt8) : String :=
  "0x" ++ Bytes.toHex [b]

/-- The place of a fault: one position, or the first and the last. -/
def place (position width : Nat) : String :=
  if width ≤ 1 then toString position else s!"{position}-{position + width - 1}"

/-- The message of a failed conversion. -/
def Fault.message : Fault → String
  | .unknown name => "unknown encoding: " ++ name
  | .nulInName => "embedded null character"
  | .decoding charset position width first reason =>
    let subject :=
      if width ≤ 1 then "byte " ++ hexByte first ++ " in position " else "bytes in position "
    s!"'{charset.label}' codec can't decode {subject}{place position width}: {reason.message}"
  | .encoding charset position width first reason =>
    let subject :=
      if width ≤ 1 then
        "character '" ++ String.ofList (encodedName first) ++ "' in position "
      else "characters in position "
    s!"'{charset.label}' codec can't encode {subject}{place position width}: {reason.message}"
  | .other message => message
where
  /-- A character outside of ASCII is shown by its code. -/
  encodedName (c : Char) : List Char := escapeCode c.toNat

/-- The names of the encodings, in lower case with one underscore for each run of other signs. -/
def names : List (String × Charset) :=
  [("utf_8", .utf8), ("utf8", .utf8), ("u8", .utf8), ("utf", .utf8), ("cp65001", .utf8),
    ("utf_8_sig", .utf8Marked), ("ascii", .ascii), ("us_ascii", .ascii), ("646", .ascii),
    ("us", .ascii), ("iso646_us", .ascii), ("latin_1", .latin1), ("latin1", .latin1),
    ("latin", .latin1), ("l1", .latin1), ("iso8859_1", .latin1), ("iso_8859_1", .latin1),
    ("iso8859", .latin1), ("8859", .latin1), ("cp819", .latin1), ("cp1252", .windows1252),
    ("1252", .windows1252), ("windows_1252", .windows1252), ("utf_16_le", .utf16le),
    ("utf_16le", .utf16le), ("unicodelittleunmarked", .utf16le), ("euc_kr", .eucKr),
    ("euckr", .eucKr), ("korean", .eucKr), ("ksc5601", .eucKr), ("ks_c_5601", .eucKr),
    ("ks_c_5601_1987", .eucKr), ("ksx1001", .eucKr), ("ks_x_1001", .eucKr)]

/-- A name in lower case with one underscore for each run of signs between its parts. -/
def normalizeName (name : String) : String :=
  let isPart (c : Char) : Bool := c.isAlphanum || c = '.'
  let rec go (inPart : Bool) : List Char → List Char
    | [] => []
    | c :: rest =>
      if isPart c then
        if inPart then c.toLower :: go true rest else '_' :: c.toLower :: go true rest
      else go false rest
  String.ofList (go true (name.toList.dropWhile fun c => !isPart c))

/-- The encoding of a name. -/
def ofName? (name : String) : Option Charset :=
  (names.find? fun e => e.1 = normalizeName name).map Prod.snd

/-- The characters of the octets 0x80 to 0x9F in the Windows set; U+FFFD where there is none. -/
def windowsCells : List Nat :=
  [0x20AC, 0xFFFD, 0x201A, 0x0192, 0x201E, 0x2026, 0x2020, 0x2021, 0x02C6, 0x2030, 0x0160,
    0x2039, 0x0152, 0xFFFD, 0x017D, 0xFFFD, 0xFFFD, 0x2018, 0x2019, 0x201C, 0x201D, 0x2022,
    0x2013, 0x2014, 0x02DC, 0x2122, 0x0161, 0x203A, 0x0153, 0xFFFD, 0x017E, 0x0178]

/-- The character of one octet in a set of single octets. -/
def single? (charset : Charset) (b : UInt8) : Option Char :=
  let n := b.toNat
  match charset with
  | .ascii => if n < 0x80 then some (Char.ofNat n) else none
  | .windows1252 =>
    if n < 0x80 ∨ 0xA0 ≤ n then some (Char.ofNat n)
    else
      match windowsCells[n - 0x80]? with
      | some 0xFFFD => none
      | some code => some (Char.ofNat code)
      | none => none
  | _ => some (Char.ofNat n)

/-- The reason why a set of single octets lacks one. -/
def singleReason : Charset → Reason
  | .ascii => .notAscii
  | .latin1 => .notLatin
  | _ => .undefinedCell

/-- Read octets of a set of single octets; `done` holds the characters before, last one first. -/
def decodeSingle (charset : Charset) (position : Nat) (done : List Char) :
    Bytes → Except Fault (List Char)
  | [] => .ok done.reverse
  | b :: rest =>
    match single? charset b with
    | some c => decodeSingle charset (position + 1) (c :: done) rest
    | none => .error (.decoding charset position 1 b (singleReason charset))

/-- Read pairs of octets as units of UTF-16; `done` holds the characters before. -/
def decodeUnits (position : Nat) (done : List Char) : Bytes → Except Fault (List Char)
  | [] => .ok done.reverse
  | [b] => .error (.decoding .utf16le position 1 b .truncatedUnit)
  | a :: b :: rest =>
    let unit := a.toNat + 256 * b.toNat
    if unit < 0xD800 ∨ 0xE000 ≤ unit then
      decodeUnits (position + 2) (Char.ofNat unit :: done) rest
    else if 0xDC00 ≤ unit then
      .error (.decoding .utf16le position 2 a .unpairedLow)
    else
      match rest with
      | a₁ :: b₁ :: rest₁ =>
        let low := a₁.toNat + 256 * b₁.toNat
        if 0xDC00 ≤ low ∧ low < 0xE000 then
          let code := 0x10000 + 1024 * (unit - 0xD800) + (low - 0xDC00)
          decodeUnits (position + 4) (Char.ofNat code :: done) rest₁
        else .error (.decoding .utf16le position 2 a .unpairedHigh)
      | _ => .error (.decoding .utf16le position (2 + rest.length) a .endOfData)

/-- The fault of UTF-8 as a fault of the encoding. -/
def ofUtf8Fault (fault : Utf8.Fault) : Fault :=
  let reason : Reason :=
    match fault.cause with
    | .start => .invalidStart
    | .continuation => .invalidContinuation
    | .truncated => .endOfData
  .decoding .utf8 fault.position fault.width fault.first reason

/-- The octets without a byte order mark in front. -/
def dropMark : Bytes → Bytes
  | 0xEF :: 0xBB :: 0xBF :: rest => rest
  | bs => bs

/-- Read UTF-8. -/
def decodeUtf8 (bs : Bytes) : Except Fault (List Char) :=
  (Utf8.decode bs).mapError ofUtf8Fault

/-- The text that octets spell in an encoding. -/
def decode (charset : Charset) (bs : Bytes) : Except Fault (List Char) :=
  match charset with
  | .utf8 => decodeUtf8 bs
  | .utf8Marked => decodeUtf8 (dropMark bs)
  | .utf16le => decodeUnits 0 [] bs
  | .eucKr =>
    match EucKr.run 0 0 [] bs with
    | .ok cs => .ok cs
    | .error (position, width, first, .illegal) =>
      .error (.decoding .eucKr position width first .illegalSequence)
    | .error (position, width, first, .incomplete) =>
      .error (.decoding .eucKr position width first .incompleteSequence)
  | _ => decodeSingle charset 0 [] bs

/-- The octets of a character in a Korean text. -/
def eucKrOctets? (c : Char) : Option Bytes :=
  let n := c.toNat
  if n < 0x80 then some [UInt8.ofNat n]
  else if n = 0x3164 then some [0xA4, 0xD4]
  else if n = 0xFFFD then none
  else
    let rec search (row : Nat) : List String → Option Bytes
      | [] => none
      | cells :: rest =>
        match cells.toList.idxOf? c with
        | some column => some [UInt8.ofNat row, UInt8.ofNat (0xA1 + column)]
        | none => search (row + 1) rest
    match search 0xA1 ksX1001Rows with
    | some bs => some bs
    | none =>
      if 0xAC00 ≤ n ∧ n ≤ 0xD7A3 then
        let k := n - 0xAC00
        match EucKr.initialLetters[k / 588]?, EucKr.finalLetters[k % 28]? with
        | some i, some f =>
          some [0xA4, 0xD4, 0xA4, UInt8.ofNat i, 0xA4, UInt8.ofNat (0xBF + k % 588 / 28), 0xA4,
            UInt8.ofNat f]
        | _, _ => none
      else none

/-- The octets of a character, if it has some. -/
def octets? (charset : Charset) (c : Char) : Option Bytes :=
  let n := c.toNat
  match charset with
  | .utf8 | .utf8Marked => some (String.utf8EncodeChar c)
  | .ascii => if n < 0x80 then some [UInt8.ofNat n] else none
  | .latin1 => if n < 0x100 then some [UInt8.ofNat n] else none
  | .windows1252 =>
    if n < 0x80 ∨ (0xA0 ≤ n ∧ n < 0x100) then some [UInt8.ofNat n]
    else if n = 0xFFFD then none
    else (windowsCells.idxOf? n).map fun i => [UInt8.ofNat (0x80 + i)]
  | .utf16le =>
    if n < 0x10000 then some (Bytes.ofNat 2 n)
    else
      some (Bytes.ofNat 2 (0xD800 + (n - 0x10000) / 1024) ++
        Bytes.ofNat 2 (0xDC00 + (n - 0x10000) % 1024))
  | .eucKr => eucKrOctets? c

/-- Write characters from `position` on; `done` holds the octets before, in pieces. -/
def encodeFrom (charset : Charset) (position : Nat) (done : List Bytes) :
    List Char → Except Fault Bytes
  | [] => .ok done.reverse.flatten
  | c :: rest =>
    match octets? charset c with
    | some bs => encodeFrom charset (position + 1) (bs :: done) rest
    | none =>
      if charset = .eucKr then .error (.encoding charset position 1 c .illegalSequence)
      else
        let run := rest.takeWhile fun c => (octets? charset c).isNone
        .error (.encoding charset position (1 + run.length) c (singleReason charset))

/-- The octets of a text in an encoding. -/
def encode (charset : Charset) (cs : List Char) : Except Fault Bytes :=
  match encodeFrom charset 0 [] cs with
  | .ok bs => .ok (if charset = .utf8Marked then 0xEF :: 0xBB :: 0xBF :: bs else bs)
  | .error fault => .error fault

/-- How an encoding reads and writes. -/
structure Codec where
  decode : Bytes → Except Fault (List Char)
  encode : List Char → Except Fault Bytes

/-- The encodings that are found by other names than those above. -/
abbrev Registry : Type := String → Option Codec

/-- The registry without encodings. -/
def noOthers : Registry := fun _ => none

/-- The encoding of a name. -/
def codec? (others : Registry) (name : String) : Option Codec :=
  match ofName? name with
  | some charset => some ⟨charset.decode, charset.encode⟩
  | none => others name

/-- Read octets in the encoding of a name. No octets spell the empty text under every name. -/
def decodeNamed (others : Registry) (name : String) (bs : Bytes) : Except Fault (List Char) :=
  if name.toList.contains (Char.ofNat 0) then .error .nulInName
  else if bs.isEmpty then .ok []
  else
    match codec? others name with
    | some codec => codec.decode bs
    | none => .error (.unknown name)

/-- Write a text in the encoding of a name. -/
def encodeNamed (others : Registry) (name : String) (text : String) : Except Fault Bytes :=
  if name.toList.contains (Char.ofNat 0) then .error .nulInName
  else
    match codec? others name with
    | some codec => codec.encode text.toList
    | none => .error (.unknown name)

end Charset

end ArchiveExport.Text
