import ArchiveExport.Text.Numeral
import ArchiveExport.Settings.Basic

/-!
# Command line options

The arguments of a command are options with long names that start with two dashes. A name may be
cut short as long as it means one option; a value follows its option, or an equals sign behind it.
Options that take nothing may also have names of one letter, and several of these may share a
dash. Arguments are first told apart, then taken one after the other.
-/

namespace ArchiveExport.Command

/-- What an option takes. -/
inductive OptionKind where
  /-- Asks for help instead of anything else. -/
  | help
  | flag
  | text
  | integer
  | modes
  deriving DecidableEq

/-- An option: its long name, its names of one letter, what it takes and which options it does
not stand with. -/
structure OptionSpec where
  name : String
  letters : List Char := []
  kind : OptionKind
  excludes : List String := []

/-- What an option was given. -/
inductive OptionValue where
  | set
  | text (value : String)
  | integer (value : Int)
  | names (values : List String)
  deriving DecidableEq

/-- Why arguments make no command. -/
inductive UsageFault where
  /-- Help is asked for. -/
  | help
  | ambiguous (argument : String)
  | unexpectedValue (name : String)
  | missingValue (name : String)
  | invalidValue (name value : String)
  | excluded (name other : String)
  | missing (name : String)
  | unrecognized (arguments : List String)
  | unknownCommand (name : String)
  deriving DecidableEq

/-- The fault in words. -/
def UsageFault.message : UsageFault → String
  | .help => "help"
  | .ambiguous argument => s!"ambiguous option: {argument}"
  | .unexpectedValue name => s!"argument {name}: ignored explicit argument"
  | .missingValue name => s!"argument {name}: expected one argument"
  | .invalidValue name value => s!"argument {name}: invalid value: {value}"
  | .excluded name other => s!"argument {name}: not allowed with argument {other}"
  | .missing name => s!"the following arguments are required: {name}"
  | .unrecognized arguments => "unrecognized arguments: " ++ Text.join " " arguments
  | .unknownCommand name => s!"argument command: invalid choice: {name}"

namespace OptionSpec

/-- Whether an option takes a value. -/
def takesValue (spec : OptionSpec) : Bool :=
  match spec.kind with
  | .help | .flag => false
  | .text | .integer | .modes => true

/-- Whether one of an option's names is spelled out. -/
def isNamed (spec : OptionSpec) (argument : String) : Bool :=
  argument = spec.name || spec.letters.any fun c => argument = String.ofList ['-', c]

end OptionSpec

/-- What an argument is. -/
inductive Token where
  | plain
  /-- All arguments behind it are plain. -/
  | separator
  /-- An option by its long name or a cut one, with the text behind the equals sign. -/
  | option (spec : OptionSpec) (attached : Option String)
  /-- Letters behind one dash, the first of them that of an option. -/
  | letters (spec : OptionSpec) (more : List Char)
  | unknown

/-- What stands in front of the first equals sign and what behind it. -/
def splitValue (argument : String) : String × Option String :=
  let name := argument.toList.takeWhile (· ≠ '=')
  match argument.toList.drop name.length with
  | [] => (argument, none)
  | _ :: value => (String.ofList name, some (String.ofList value))

/-- Whether a text is a negative number, without or with a fraction. -/
def isNegativeNumber (argument : String) : Bool :=
  let isDigit (c : Char) : Bool := (Text.decimalDigit? c).isSome
  let body := argument.toList.drop 1
  let body := if body.getLast? = some '\n' then body.dropLast else body
  let whole := body.takeWhile isDigit
  match body.drop whole.length with
  | [] => !whole.isEmpty
  | '.' :: fraction => !fraction.isEmpty && fraction.all isDigit
  | _ => false

/-- Whether an option of a letter or a long name is meant by an argument that is spelled out. -/
def exactToken? (specs : List OptionSpec) (argument : String) : Option Token :=
  let token (argument : String) (attached : Option String) : Option Token :=
    (specs.find? fun spec => spec.isNamed argument).map fun spec =>
      .option spec attached
  (token argument none).or <|
    match splitValue argument with
    | (name, some value) => token name (some value)
    | (_, none) => none

/-- The options that a cut name or a letter may mean. -/
def candidates (specs : List OptionSpec) (argument : String) : List Token :=
  if Text.startsWith "--" argument then
    let (start, attached) := splitValue argument
    (specs.filter fun spec => Text.startsWith start spec.name).map (.option · attached)
  else
    match argument.toList with
    | _ :: c :: more =>
      (specs.filter fun spec => spec.letters.contains c).map (.letters · more)
    | _ => []

/-- What an argument is that no separator precedes. -/
def classify (specs : List OptionSpec) (argument : String) : Except UsageFault Token :=
  if !Text.startsWith "-" argument then .ok .plain
  else if argument = "--" then .ok .separator
  else
    match exactToken? specs argument with
    | some token => .ok token
    | none =>
      if argument = "-" then .ok .plain
      else
        match candidates specs argument with
        | [token] => .ok token
        | _ :: _ :: _ => .error (.ambiguous argument)
        | [] =>
          if isNegativeNumber argument ∨ Text.contains " " argument then .ok .plain
          else .ok .unknown

/-- What arguments are. -/
def classifyAll (specs : List OptionSpec) : List String → Except UsageFault (List (String × Token))
  | [] => .ok []
  | argument :: rest => do
    match ← classify specs argument with
    | .separator => return (argument, .separator) :: rest.map fun argument => (argument, .plain)
    | token => return (argument, token) :: (← classifyAll specs rest)

/-- The modes of a text, separated by commas: at least one, and none that there is not. -/
def modesOf? (text : String) : Option (List String) :=
  let names := (Text.split ',' text).map Mode.nameForm |>.filter (· ≠ "")
  if names.isEmpty ∨ !names.all (· ∈ Settings.knownModes) then none else some names

/-- What a text is worth to an option. -/
def valueOf (spec : OptionSpec) (text : String) : Except UsageFault OptionValue :=
  match spec.kind with
  | .integer =>
    match Text.Numeral.read text with
    | .ok n => .ok (.integer n)
    | .error _ => .error (.invalidValue spec.name text)
  | .modes =>
    match modesOf? text with
    | some names => .ok (.names names)
    | none => .error (.invalidValue spec.name text)
  | _ => .ok (.text text)

/-- The options of letters that share a dash, and the letters from the first one on that names no
option. -/
def optionsOfLetters (specs : List OptionSpec) (first : OptionSpec) :
    List Char → Except UsageFault (List OptionSpec × List Char)
  | [] => .ok ([first], [])
  | c :: more => do
    if c = '=' ∨ c = '-' then
      throw (.unexpectedValue first.name)
    match specs.find? fun spec => spec.letters.contains c with
    | some spec =>
      let (options, rest) ← optionsOfLetters specs spec more
      return (first :: options, rest)
    | none => return ([first], c :: more)

/-- The options taken so far, with their values, and the arguments that are none. -/
structure Taken where
  options : List (String × OptionValue) := []
  rest : List String := []

namespace Taken

/-- Take an option with its value, unless it does not stand with one taken before. -/
def add (t : Taken) (spec : OptionSpec) (value : OptionValue) : Except UsageFault Taken :=
  if spec.kind = .help then .error .help
  else
    match t.options.find? fun o => o.1 ∈ spec.excludes with
    | some other => .error (.excluded spec.name other.1)
    | none => .ok { t with options := t.options ++ [(spec.name, value)] }

/-- Take arguments one after the other. -/
def addAll (specs : List OptionSpec) (t : Taken) :
    List (String × Token) → Except UsageFault Taken
  | [] => .ok t
  | (_, .letters first more) :: tokens => do
    let (flags, rest) ← optionsOfLetters specs first more
    let t ← flags.foldlM (fun t spec => t.add spec .set) t
    let unknown := if rest.isEmpty then [] else [String.ofList ('-' :: rest)]
    addAll specs { t with rest := t.rest ++ unknown } tokens
  | (_, .option spec (some value)) :: tokens => do
    if !spec.takesValue then
      throw (.unexpectedValue spec.name)
    addAll specs (← t.add spec (← valueOf spec value)) tokens
  | (_, .option spec none) :: tokens =>
    if !spec.takesValue then do
      addAll specs (← t.add spec .set) tokens
    else
      match tokens with
      | (argument, .plain) :: tokens => do
        addAll specs (← t.add spec (← valueOf spec argument)) tokens
      | _ => .error (.missingValue spec.name)
  | (argument, _) :: tokens => addAll specs { t with rest := t.rest ++ [argument] } tokens

/-- The last text given to an option. -/
def text? (t : Taken) (name : String) : Option String :=
  (t.options.filterMap fun o =>
    match o with
    | (n, .text value) => if n = name then some value else none
    | _ => none).getLast?

/-- All texts given to an option. -/
def texts (t : Taken) (name : String) : List String :=
  t.options.filterMap fun o =>
    match o with
    | (n, .text value) => if n = name then some value else none
    | _ => none

/-- The last integer given to an option. -/
def integer? (t : Taken) (name : String) : Option Int :=
  (t.options.filterMap fun o =>
    match o with
    | (n, .integer value) => if n = name then some value else none
    | _ => none).getLast?

/-- The last names given to an option. -/
def names? (t : Taken) (name : String) : Option (List String) :=
  (t.options.filterMap fun o =>
    match o with
    | (n, .names values) => if n = name then some values else none
    | _ => none).getLast?

/-- Whether an option was given. -/
def has (t : Taken) (name : String) : Bool :=
  t.options.any fun o => o.1 = name

end Taken

/-- Take the arguments of a command. -/
def take (specs : List OptionSpec) (arguments : List String) : Except UsageFault Taken := do
  Taken.addAll specs {} (← classifyAll specs arguments)

end ArchiveExport.Command
