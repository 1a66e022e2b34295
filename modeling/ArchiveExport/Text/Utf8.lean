import ArchiveExport.Bytes.Basic

/-!
# UTF-8

Characters are read from octets by a machine that takes one octet at a time. Between characters it
is idle; inside a character it holds the code collected so far, the number of octets still owed and
the range of the next one. The strict reading stops at the first octet that no text can hold; the
lossy reading puts U+FFFD for the longest beginning of a character and goes on at that octet.
-/

namespace ArchiveExport.Text.Utf8

/-- What is wrong with an octet. -/
inductive Cause where
  /-- No character starts with it. -/
  | start
  /-- It does not continue the character begun before it. -/
  | continuation
  /-- The octets end inside a character. -/
  | truncated
  deriving DecidableEq, Repr

/-- Where a text breaks off: the octets from `position` on, `width` of them, begin a character
that `cause` cuts short, and `first` is the first of them. -/
structure Fault where
  position : Nat
  width : Nat
  first : UInt8
  cause : Cause
  deriving DecidableEq, Repr

/-- A character begun: its position and first octet, the octets `taken` and `owed`, the code
collected and the range of the next octet. -/
structure Partial where
  position : Nat
  first : UInt8
  taken : Nat
  owed : Nat
  code : Nat
  low : Nat
  high : Nat
  deriving DecidableEq, Repr

/-- What one octet does. -/
inductive Step where
  /-- It completes a character. -/
  | emit (c : Char)
  /-- It begins or continues one. -/
  | more (p : Partial)
  /-- It fits nowhere. -/
  | refuse
  deriving DecidableEq, Repr

/-- An octet between characters. The ranges leave out overlong forms, surrogates and all above
U+10FFFF. -/
def begin (position : Nat) (b : UInt8) : Step :=
  let n := b.toNat
  let opening (owed code low high : Nat) : Step := .more ⟨position, b, 1, owed, code, low, high⟩
  if n < 0x80 then .emit (Char.ofNat n)
  else if n < 0xC2 then .refuse
  else if n < 0xE0 then opening 1 (n - 0xC0) 0x80 0xBF
  else if n = 0xE0 then opening 2 0 0xA0 0xBF
  else if n = 0xED then opening 2 0xD 0x80 0x9F
  else if n < 0xF0 then opening 2 (n - 0xE0) 0x80 0xBF
  else if n = 0xF0 then opening 3 0 0x90 0xBF
  else if n < 0xF4 then opening 3 (n - 0xF0) 0x80 0xBF
  else if n = 0xF4 then opening 3 4 0x80 0x8F
  else .refuse

/-- An octet inside a character. -/
def Partial.next (p : Partial) (b : UInt8) : Step :=
  let n := b.toNat
  if p.low ≤ n ∧ n ≤ p.high then
    let code := 64 * p.code + (n - 0x80)
    if p.owed ≤ 1 then .emit (Char.ofNat code)
    else .more ⟨p.position, p.first, p.taken + 1, p.owed - 1, code, 0x80, 0xBF⟩
  else
    .refuse

/-- The fault of a character that its next octet does not continue. -/
def Partial.fault (p : Partial) (cause : Cause) : Fault :=
  ⟨p.position, p.taken, p.first, cause⟩

/-- Read octets strictly from a state; `done` holds the characters before, the last one first. -/
def run (position : Nat) (state : Option Partial) (done : List Char) :
    Bytes → Except Fault (List Char × Option Partial)
  | [] => .ok (done.reverse, state)
  | b :: rest =>
    match state with
    | none =>
      match begin position b with
      | .emit c => run (position + 1) none (c :: done) rest
      | .more p => run (position + 1) (some p) done rest
      | .refuse => .error ⟨position, 1, b, .start⟩
    | some p =>
      match p.next b with
      | .emit c => run (position + 1) none (c :: done) rest
      | .more p => run (position + 1) (some p) done rest
      | .refuse => .error (p.fault .continuation)

/-- The characters that octets spell, or the place where they spell none. -/
def decode (bs : Bytes) : Except Fault (List Char) :=
  match run 0 none [] bs with
  | .error fault => .error fault
  | .ok (cs, none) => .ok cs
  | .ok (_, some p) => .error (p.fault .truncated)

/-- The character that stands for octets that spell none. -/
def replacement : Char := Char.ofNat 0xFFFD

/-- Read octets with replacements; `done` holds the characters before, the last one first. -/
def runLossy (state : Option Partial) (done : List Char) : Bytes → List Char
  | [] => if state.isSome then (replacement :: done).reverse else done.reverse
  | b :: rest =>
    let restart (done : List Char) : Option Partial × List Char :=
      match begin 0 b with
      | .emit c => (none, c :: done)
      | .more p => (some p, done)
      | .refuse => (none, replacement :: done)
    let next : Option Partial × List Char :=
      match state with
      | none => restart done
      | some p =>
        match p.next b with
        | .emit c => (none, c :: done)
        | .more p => (some p, done)
        | .refuse => restart (replacement :: done)
    runLossy next.1 next.2 rest

/-- The characters that octets spell, with U+FFFD for each piece that spells none. -/
def decodeLossy (bs : Bytes) : List Char :=
  runLossy none [] bs

/-- The octets of a text. -/
def encode (cs : List Char) : Bytes :=
  cs.flatMap String.utf8EncodeChar

end ArchiveExport.Text.Utf8
