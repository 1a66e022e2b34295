import ArchiveExport.Json.Value
import ArchiveExport.Data.OrderedMap

/-!
# Reading JSON

A reader for JSON text that also knows the three names of values that are no numerals. A member
named twice keeps its first place and its last value. A fault names the place where the text first
departs from the grammar. Brackets can be nested only as deep as there is room for: the reader calls
itself for each of them, and breaks off where the stack it runs on would end.
-/

namespace ArchiveExport.Json

open Text (Point Spelled)

/-- How a text departs from the grammar. -/
inductive Cause where
  | value
  | propertyName
  | colon
  | comma
  | extraData
  | unterminated
  | controlCharacter
  | escape
  | unicodeEscape
  | byteOrderMark
  deriving DecidableEq, Repr

/-- The words for a departure. -/
def Cause.message : Cause → String
  | .value => "Expecting value"
  | .propertyName => "Expecting property name enclosed in double quotes"
  | .colon => "Expecting ':' delimiter"
  | .comma => "Expecting ',' delimiter"
  | .extraData => "Extra data"
  | .unterminated => "Unterminated string starting at"
  | .controlCharacter => "Invalid control character at"
  | .escape => "Invalid \\escape"
  | .unicodeEscape => "Invalid \\uXXXX escape"
  | .byteOrderMark => "Unexpected UTF-8 BOM (decode using utf-8-sig)"

/-- What stands between brackets. -/
inductive Enclosed where
  | array
  | object
  deriving DecidableEq, Repr

/-- The word for what stands between brackets. -/
def Enclosed.text : Enclosed → String
  | .array => "array"
  | .object => "object"

/-- A text that holds no value: a departure with its place as line, column and index, a numeral
with more digits than are read, or brackets inside of more others than there is room for. -/
inductive Fault where
  | syntactic (cause : Cause) (line column index : Nat)
  | numeralTooLong (digits : Nat)
  | tooDeep (enclosed : Enclosed)
  deriving DecidableEq, Repr

/-- The message of a fault. -/
def Fault.message : Fault → String
  | .syntactic cause line column index =>
    s!"{cause.message}: line {line} column {column} (char {index})"
  | .numeralTooLong digits =>
    "Exceeds the limit (4300 digits) for integer string conversion: " ++
      s!"value has {digits} digits; use sys.set_int_max_str_digits() to increase the limit"
  | .tooDeep enclosed =>
    s!"maximum recursion depth exceeded while decoding a JSON {enclosed.text} from a unicode string"

/-- A fault while reading: the cause with the number of characters left at its place, a numeral
that is too long, or brackets that are nested too deep. -/
inductive Stop where
  | at (cause : Cause) (left : Nat)
  | numeral (digits : Nat)
  | tooDeep (enclosed : Enclosed)

/-- The greatest number of digits of an integer. -/
def maxDigits : Nat := 4300

/-- Whether a character is a blank between tokens. -/
def isSpace (c : Char) : Bool :=
  c = ' ' || c = '\t' || c = '\n' || c = '\r'

/-- The text from its next token on. -/
def skipSpace (cs : List Char) : List Char :=
  cs.dropWhile isSpace

/-- The value of a hexadecimal digit. -/
def hexValue? (c : Char) : Option Nat :=
  let n := c.toNat
  if 48 ≤ n ∧ n ≤ 57 then some (n - 48)
  else if 97 ≤ n ∧ n ≤ 102 then some (n - 87)
  else if 65 ≤ n ∧ n ≤ 70 then some (n - 55)
  else none

/-- The value of four hexadecimal digits. -/
def unit? : List Char → Option Nat
  | [a, b, c, d] =>
    match hexValue? a, hexValue? b, hexValue? c, hexValue? d with
    | some a, some b, some c, some d => some (4096 * a + 256 * b + 16 * c + d)
    | _, _, _, _ => none
  | _ => none

/-- The character of a short escape. -/
def shortEscape? : Char → Option Char
  | '"' => some '"'
  | '\\' => some '\\'
  | '/' => some '/'
  | 'b' => some (Char.ofNat 8)
  | 'f' => some (Char.ofNat 12)
  | 'n' => some '\n'
  | 'r' => some '\r'
  | 't' => some '\t'
  | _ => none

/-- The escape of a code after its `u`: the code point and what follows. A high surrogate joins with
a low one escaped right behind it; any other surrogate stays as it is. -/
def unicodeEscape (cs : List Char) : Except Stop (Point × List Char) :=
  let rest := cs.drop 4
  match unit? (cs.take 4), rest with
  | _, [] => .error (.at .unicodeEscape (cs.length + 1))
  | none, _ => .error (.at .unicodeEscape (cs.length + 1))
  | some n, rest =>
    match rest with
    | '\\' :: 'u' :: more =>
      if 0xD800 ≤ n ∧ n < 0xDC00 ∧ !(more.drop 4).isEmpty then
        match unit? (more.take 4) with
        | none => .error (.at .unicodeEscape (more.length + 1))
        | some low =>
          if 0xDC00 ≤ low ∧ low < 0xE000 then
            .ok (.char (Char.ofNat (0x10000 + 1024 * (n - 0xD800) + (low - 0xDC00))), more.drop 4)
          else .ok (.ofUnit n, rest)
      else .ok (.ofUnit n, rest)
    | _ => .ok (.ofUnit n, rest)

variable {τ : Type}

/-- Read a text up to its closing quote. `start` holds the characters from its opening quote on,
and `done` the code points read, the last one first. -/
def readText [Spelled τ] (start : List Char) :
    Nat → List Point → List Char → Except Stop (τ × List Char)
  | 0, _, _ => .error (.at .unterminated start.length)
  | _, _, [] => .error (.at .unterminated start.length)
  | fuel + 1, done, c :: rest =>
    if c = '"' then .ok (Spelled.ofPoints done.reverse, rest)
    else if c = '\\' then
      match rest with
      | [] => .error (.at .unterminated start.length)
      | 'u' :: more =>
        match unicodeEscape more with
        | .ok (point, rest) => readText start fuel (point :: done) rest
        | .error stop => .error stop
      | e :: more =>
        match shortEscape? e with
        | some c => readText start fuel (.char c :: done) more
        | none => .error (.at .escape (more.length + 2))
    else if c.toNat < 0x20 then .error (.at .controlCharacter (rest.length + 1))
    else readText start fuel (.char c :: done) rest

/-- Whether a character is a decimal digit. -/
def isDigit (c : Char) : Bool :=
  48 ≤ c.toNat && c.toNat ≤ 57

/-- The number that digits spell. -/
def digitsValue (ds : List Char) : Nat :=
  ds.foldl (fun n c => 10 * n + (c.toNat - 48)) 0

/-- The whole part of a numeral: a zero, or digits that start with another one. -/
def wholePart (cs : List Char) : List Char × List Char :=
  match cs with
  | '0' :: rest => (['0'], rest)
  | _ => (cs.takeWhile isDigit, cs.dropWhile isDigit)

/-- The digits behind a point, if a point with digits comes next. -/
def fractionPart (cs : List Char) : List Char × List Char :=
  match cs with
  | '.' :: rest =>
    let ds := rest.takeWhile isDigit
    if ds.isEmpty then ([], cs) else (ds, rest.drop ds.length)
  | _ => ([], cs)

/-- The exponent, if one comes next. -/
def exponentPart (cs : List Char) : Option (Int × List Char) :=
  match cs with
  | [] => none
  | c :: rest =>
    if c = 'e' ∨ c = 'E' then
      let signed : Bool × List Char :=
        match rest with
        | '-' :: more => (true, more)
        | '+' :: more => (false, more)
        | _ => (false, rest)
      let ds := signed.2.takeWhile isDigit
      if ds.isEmpty then none
      else
        let n : Int := digitsValue ds
        some (if signed.1 then -n else n, signed.2.drop ds.length)
    else none

/-- Read a numeral. -/
def readNumber (cs : List Char) : Except Stop (Json τ × List Char) :=
  let negative := cs.head? = some '-'
  let (whole, rest) := wholePart (if negative then cs.drop 1 else cs)
  if whole.isEmpty then .error (.at .value cs.length)
  else
    let (fraction, rest) := fractionPart rest
    match exponentPart rest with
    | some (exponent, rest) =>
      let digits := digitsValue (whole ++ fraction)
      .ok (.real (.ofDecimal negative ⟨digits, exponent - fraction.length⟩), rest)
    | none =>
      if fraction.isEmpty then
        if maxDigits < whole.length then .error (.numeral whole.length)
        else
          let n : Int := digitsValue whole
          .ok (.integer (if negative then -n else n), rest)
      else
        .ok (.real (.ofDecimal negative ⟨digitsValue (whole ++ fraction), -fraction.length⟩), rest)

/-- The values that are written as names. -/
def names : List (List Char × Json τ) :=
  [("null".toList, .null), ("true".toList, .bool true), ("false".toList, .bool false),
    ("NaN".toList, .real .nan), ("Infinity".toList, .real (.infinity false)),
    ("-Infinity".toList, .real (.infinity true))]

/-- Read a name or a numeral. -/
def readScalar (cs : List Char) : Except Stop (Json τ × List Char) :=
  match names.find? fun n => n.1.isPrefixOf cs with
  | some (name, json) => .ok (json, cs.drop name.length)
  | none => readNumber cs

variable [Spelled τ] [DecidableEq τ]

mutual

/-- Read a value inside of which there is room for some nested brackets. -/
def readValue : Nat → Nat → List Char → Except Stop (Json τ × List Char)
  | 0, _, cs => .error (.at .value cs.length)
  | fuel + 1, room, cs =>
    match cs with
    | '"' :: rest =>
      match readText cs fuel [] rest with
      | .ok (s, rest) => .ok (.text s, rest)
      | .error stop => .error stop
    | '[' :: rest =>
      match room with
      | 0 => .error (.tooDeep .array)
      | room + 1 =>
        match skipSpace rest with
        | ']' :: rest => .ok (.array [], rest)
        | rest => readItems fuel room [] rest
    | '\x7b' :: rest =>
      match room with
      | 0 => .error (.tooDeep .object)
      | room + 1 =>
        match skipSpace rest with
        | '\x7d' :: rest => .ok (.object [], rest)
        | rest => readMembers fuel room [] rest
    | _ => readScalar cs

/-- Read the items of an array up to its bracket; `done` holds those read, the last one first. -/
def readItems : Nat → Nat → List (Json τ) → List Char → Except Stop (Json τ × List Char)
  | 0, _, _, cs => .error (.at .value cs.length)
  | fuel + 1, room, done, cs =>
    match readValue fuel room cs with
    | .error stop => .error stop
    | .ok (item, rest) =>
      match skipSpace rest with
      | ']' :: rest => .ok (.array (item :: done).reverse, rest)
      | ',' :: rest => readItems fuel room (item :: done) (skipSpace rest)
      | rest => .error (.at .comma rest.length)

/-- Read the members of an object up to its brace; `done` holds those read, the last one first. -/
def readMembers : Nat → Nat → List (τ × Json τ) → List Char → Except Stop (Json τ × List Char)
  | 0, _, _, cs => .error (.at .propertyName cs.length)
  | fuel + 1, room, done, cs =>
    match cs with
    | '"' :: rest =>
      match readText cs fuel [] rest with
      | .error stop => .error stop
      | .ok (name, rest) =>
        match skipSpace rest with
        | ':' :: rest =>
          match readValue fuel room (skipSpace rest) with
          | .error stop => .error stop
          | .ok (value, rest) =>
            let done := (name, value) :: done
            match skipSpace rest with
            | '\x7d' :: rest => .ok (.object (OrderedMap.ofList done.reverse).entries, rest)
            | ',' :: rest => readMembers fuel room done (skipSpace rest)
            | rest => .error (.at .comma rest.length)
        | rest => .error (.at .colon rest.length)
    | _ => .error (.at .propertyName cs.length)

end

/-- The line and column of an index, both counted from one. -/
def lineAndColumn (cs : List Char) (index : Nat) : Nat × Nat :=
  let before := cs.take index
  (before.count '\n' + 1, (before.reverse.takeWhile (· ≠ '\n')).length + 1)

/-- A stop as a fault of the whole text. -/
def Stop.toFault (cs : List Char) : Stop → Fault
  | .at cause left =>
    let index := cs.length - left
    let place := lineAndColumn cs index
    .syntactic cause place.1 place.2 index
  | .numeral digits => .numeralTooLong digits
  | .tooDeep enclosed => .tooDeep enclosed

/-- The value that characters spell, read with room for some nested brackets. -/
def readWithin (room : Nat) (cs : List Char) : Except Fault (Json τ) :=
  if cs.head? = some (Char.ofNat 0xFEFF) then .error (.syntactic .byteOrderMark 1 1 0)
  else
    match readValue (2 * cs.length + 2) room (skipSpace cs) with
    | .error stop => .error (stop.toFault cs)
    | .ok (json, rest) =>
      match skipSpace rest with
      | [] => .ok json
      | rest => .error (Stop.toFault cs (.at .extraData rest.length))

/-- The value that characters spell. There is room for all the brackets there can be. -/
def readList (cs : List Char) : Except Fault Json :=
  readWithin cs.length cs

/-- The value that a text spells. -/
def read (text : String) : Except Fault Json :=
  readList text.toList

end ArchiveExport.Json
