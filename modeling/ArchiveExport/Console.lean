import ArchiveExport.Text.Basic

/-!
# Consoles

What a program has printed so far on its two channels, and whether it still prints in colour.
-/

namespace ArchiveExport

/-- The channels of a console. -/
inductive Channel where
  | output
  | error
  deriving DecidableEq

/-- The colours and weights of text on a console. -/
inductive Style where
  | bold
  | blue
  | cyan
  | green
  | yellow
  | red
  deriving DecidableEq

/-- The sequence that starts a style. -/
def Style.code : Style → String
  | .bold => "\x1b[1m"
  | .blue => "\x1b[94m"
  | .cyan => "\x1b[96m"
  | .green => "\x1b[92m"
  | .yellow => "\x1b[93m"
  | .red => "\x1b[91m"

/-- What has been printed. -/
structure Console where
  output : String := ""
  error : String := ""
  colored : Bool := true

namespace Console

/-- The console with more text on a channel. -/
def print (c : Console) (channel : Channel) (text : String) : Console :=
  match channel with
  | .output => { c with output := c.output ++ text }
  | .error => { c with error := c.error ++ text }

/-- The console with a line on a channel. -/
def printLine (c : Console) (channel : Channel) (line : String) : Console :=
  c.print channel (line ++ "\n")

/-- The console without colours from here on. -/
def withoutColor (c : Console) : Console :=
  { c with colored := false }

/-- The console with a text on a channel in some styles, ended by a line feed. The sequence that
ends styles follows the text even where there are none. -/
def printStyled (c : Console) (channel : Channel) (styles : List Style) (text : String) :
    Console :=
  if c.colored then
    c.printLine channel (Text.join "" (styles.map Style.code) ++ text ++ "\x1b[0m")
  else
    c.printLine channel text

/-- The width of headings. -/
def headingWidth : Nat := 60

/-- The console with a heading between two rules. -/
def printHeading (c : Console) (text : String) : Console :=
  let rule := String.ofList (List.replicate headingWidth '=')
  let styles : List Style := [.bold, .cyan]
  let c := (c.print .output "\n").printStyled .output styles rule
  let c := (c.printStyled .output styles ("  " ++ text)).printStyled .output styles rule
  c.print .output "\n"

/-- The console with the news that something is done. -/
def printDone (c : Console) (text : String) : Console :=
  c.printStyled .output [.green] ("[OK] " ++ text)

/-- The console with a warning. -/
def printWarning (c : Console) (text : String) : Console :=
  c.printStyled .error [.yellow] ("[WARN] " ++ text)

/-- The console with an error. -/
def printError (c : Console) (text : String) : Console :=
  c.printStyled .error [.red] ("[ERROR] " ++ text)

/-- The trace of a fault: a line that announces it, and the fault in words. -/
def traceOf (message : String) : String :=
  s!"Traceback (most recent call last):\n{message}"

end Console

end ArchiveExport
