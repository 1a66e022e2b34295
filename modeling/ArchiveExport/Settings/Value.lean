import ArchiveExport.Json.Stream
import ArchiveExport.Text.Basic
import ArchiveExport.Text.Numeral
import ArchiveExport.Text.Quoted

/-!
# Setting values

A settings file can hold any JSON value under any name, and most values are taken over as they
are. A value of the wrong kind is found out when it is used; the misuse is then the fault.
-/

namespace ArchiveExport.Setting

open Text (Spelled Wide)

variable {τ : Type}

/-- The name of a value's kind. -/
def kindName : Json τ → String
  | .null => "NoneType"
  | .bool _ => "bool"
  | .integer _ => "int"
  | .real _ => "float"
  | .text _ => "str"
  | .array _ => "list"
  | .object _ => "dict"

/-- The name of a value's kind as an argument. -/
def argumentName : Json τ → String
  | .null => "None"
  | value => kindName value

/-- How a value is not fit for its use. -/
inductive Misuse where
  /-- A value of this kind cannot be put behind a text. -/
  | appended (kind : String)
  /-- A value of this kind names no encoding. -/
  | encoding (kind : String)
  /-- A value of this kind has no parts. -/
  | parts (kind : String)
  /-- A value of this kind does not know an operation on texts. -/
  | operation (kind operation : String)
  /-- A value of this kind is no number. -/
  | number (kind : String)
  /-- A text is no numeral. -/
  | numeral (text : Wide)
  /-- A numeral with too many digits. -/
  | digits (count : Nat)
  /-- An integer with too many digits to be shown. -/
  | hiddenDigits
  /-- Brackets that are nested too deep to be shown. -/
  | tooDeep
  | notANumber
  | infinite
  /-- An indentation out of all proportion. -/
  | indentation
  /-- A value of this kind is no path. -/
  | path (kind : String)
  /-- A value of this kind names no file. -/
  | file (kind : String)
  /-- The modes are not some of those there are. -/
  | modes
  /-- A text names no mode. -/
  | unknownMode (name : Wide)
  /-- A setting that cannot be set by its name. -/
  | fixed (name : String)
  deriving DecidableEq

/-- The most characters that are shown of a text that is no numeral. -/
def maxShown : Nat := 200

/-- The misuse in words. -/
def Misuse.message : Misuse → String
  | .appended kind => s!"can only concatenate str (not \"{kind}\") to str"
  | .encoding kind => s!"decode() argument 'encoding' must be str, not {kind}"
  | .parts kind => s!"'{kind}' object is not iterable"
  | .operation kind name => s!"'{kind}' object has no attribute '{name}'"
  | .number kind =>
    s!"int() argument must be a string, a bytes-like object or a real number, not '{kind}'"
  | .numeral text =>
    let shown := String.ofList ((Text.quotePoints text.points).toList.take maxShown)
    s!"invalid literal for int() with base 10: {shown}"
  | .digits count =>
    s!"Exceeds the limit (4300 digits) for integer string conversion: value has {count} " ++
      "digits; use sys.set_int_max_str_digits() to increase the limit"
  | .hiddenDigits => Json.WriteFault.numeralTooLong.message
  | .tooDeep => "maximum recursion depth exceeded while getting the repr of an object"
  | .notANumber => "cannot convert float NaN to integer"
  | .infinite => "cannot convert float infinity to integer"
  | .indentation => "cannot fit 'int' into an index-sized integer"
  | .path kind => s!"expected str, bytes or os.PathLike object, not {kind}"
  | .file kind => s!"stat: path should be string, bytes, os.PathLike or integer, not {kind}"
  | .modes => "default_modes must be a non-empty subset of ('raw', 'json', 'text', 'texture')"
  | .unknownMode name => s!"Unknown export mode: {name.narrow}"
  | .fixed name => s!"property '{name}' of 'Config' object has no setter"

mutual

/-- Why a value cannot be shown with room for some nested brackets. -/
def obstacle? : Nat → Json τ → Option Misuse
  | _, .integer n => if Json.isTooLong n then some .hiddenDigits else none
  | 0, .array _ => some .tooDeep
  | 0, .object _ => some .tooDeep
  | room + 1, .array items => itemsObstacle? room items
  | room + 1, .object members => membersObstacle? room members
  | _, _ => none

/-- Why one of the items of an array cannot be shown. -/
def itemsObstacle? (room : Nat) : List (Json τ) → Option Misuse
  | [] => none
  | item :: items => (obstacle? room item).or (itemsObstacle? room items)

/-- Why a value of one of the members of an object cannot be shown. -/
def membersObstacle? (room : Nat) : List (τ × Json τ) → Option Misuse
  | [] => none
  | (_, value) :: members => (obstacle? room value).or (membersObstacle? room members)

end

/-- The value as the end of a text. -/
def appendTo (text : String) : Json → Except Misuse String
  | .text ending => .ok (text ++ ending)
  | value => .error (.appended (kindName value))

/-- The value as a text that an operation on texts can be done to. -/
def textFor (operation : String) : Json τ → Except Misuse τ
  | .text s => .ok s
  | value => .error (.operation (kindName value) operation)

variable [Spelled τ]

mutual

/-- A value inside of another one, texts in quotes. -/
def displayInside : Json τ → String
  | .null => "None"
  | .bool true => "True"
  | .bool false => "False"
  | .integer n => toString n
  | .real x => x.text
  | .text s => Text.quotePoints (Spelled.points s)
  | .array items => "[" ++ Text.join ", " (displayItems items) ++ "]"
  | .object members => "\x7b" ++ Text.join ", " (displayMembers members) ++ "\x7d"

/-- The items of an array. -/
def displayItems : List (Json τ) → List String
  | [] => []
  | item :: items => displayInside item :: displayItems items

/-- The members of an object. -/
def displayMembers : List (τ × Json τ) → List String
  | [] => []
  | (name, value) :: members =>
    let quoted := Text.quotePoints (Spelled.points name)
    (quoted ++ ": " ++ displayInside value) :: displayMembers members

end

/-- A value as part of a text. -/
def display : Json τ → τ
  | .text s => s
  | value => Spelled.ofPoints ((displayInside value).toList.map .char)

/-- Whether a value counts as true. -/
def isTrue : Json τ → Bool
  | .null => false
  | .bool b => b
  | .integer n => n ≠ 0
  | .real x => !x.isZero
  | .text s => !(Spelled.points s).isEmpty
  | .array items => !items.isEmpty
  | .object members => !members.isEmpty

/-- A value as part of a text, if it can be shown with room for some nested brackets. -/
def shown (room : Nat) (value : Json τ) : Except Misuse τ :=
  match obstacle? room value with
  | some misuse => .error misuse
  | none => .ok (display value)

/-- The parts of a value: items, code points or names. -/
def parts : Json τ → Except Misuse (List (Json τ))
  | .array items => .ok items
  | .text s => .ok ((Spelled.points s).map fun point => .text (Spelled.ofPoints [point]))
  | .object members => .ok (members.map fun m => .text m.1)
  | value => .error (.parts (kindName value))

/-- The integer that a value stands for: real numbers lose their fraction, and texts are read as
numerals. -/
def integer : Json Wide → Except Misuse Int
  | .bool b => .ok (if b then 1 else 0)
  | .integer n => .ok n
  | .real .nan => .error .notANumber
  | .real x =>
    match x.truncate? with
    | some n => .ok n
    | none => .error .infinite
  | .text s =>
    -- U+FFFD is no digit and no blank, just like half of a pair
    match Text.Numeral.read s.narrow with
    | .ok n => .ok n
    | .error .malformed => .error (.numeral s)
    | .error (.tooLong count) => .error (.digits count)
  | value => .error (.number (kindName value))

end ArchiveExport.Setting
