import Chip8.Text.DecimalDigit

/-! The options by name, and what each argument of a command line is: a value,
an option, something that looks like one, or the mark after which everything is
a value. Long options may be cut short while they stay unambiguous, and may
carry a value behind an equals sign. -/

set_option autoImplicit false

namespace Chip8.CommandLine

inductive OptionName where
  | help
  | scale
  | colorScheme
  | cycleDelay
  | timerHz
  | modern
  | seed
  | headless
  | cycles
  | logLevel
  deriving DecidableEq, Repr

namespace OptionName

def all : List OptionName :=
  [help, scale, colorScheme, cycleDelay, timerHz, modern, seed, headless, cycles, logLevel]

def long : OptionName → String
  | help => "--help"
  | scale => "--scale"
  | colorScheme => "--color-scheme"
  | cycleDelay => "--cycle-delay"
  | timerHz => "--timer-hz"
  | modern => "--modern"
  | seed => "--seed"
  | headless => "--headless"
  | cycles => "--cycles"
  | logLevel => "--log-level"

def shortHelp : String := "-h"

/-- How messages name the option. -/
def display : OptionName → String
  | help => "-h/--help"
  | option => option.long

def takesValue : OptionName → Bool
  | help | modern | headless => false
  | _ => true

def ofLong? (text : String) : Option OptionName := all.find? fun option => option.long == text

end OptionName

inductive Argument where
  | value (text : String)
  /-- A long option, with the text behind its equals sign if there is one. -/
  | long (option : OptionName) (attached : Option String)
  /-- The short help option, with the text that follows its letter. -/
  | short (attached : String)
  | unknown (text : String)
  | separator
  deriving DecidableEq, Repr

/-- An argument that begins several options. -/
structure Ambiguity where
  text : String
  candidates : List OptionName

namespace Argument

/-- The parts before and behind the first equals sign. -/
def splitEquals (text : List Char) : List Char × Option (List Char) :=
  match text.dropWhile (· ≠ '=') with
  | [] => (text, none)
  | _ :: behind => (text.takeWhile (· ≠ '='), some behind)

def isDigit (c : Char) : Bool := (Text.digitValue? c).isSome

/-- A minus sign and digits, the last of which may stand behind a point; a line
feed may follow. -/
def isNegativeNumber : List Char → Bool
  | '-' :: rest =>
      let body := if rest.getLast? = some '\n' then rest.dropLast else rest
      let behind := body.dropWhile isDigit
      match behind with
      | [] => !body.isEmpty
      | '.' :: places => !places.isEmpty && places.all isDigit
      | _ => false
  | _ => false

/-- What an argument without a matching option is: numbers and texts with a
space are values. -/
def withoutOption (text : String) : Argument :=
  if isNegativeNumber text.toList || text.contains ' ' then value text else unknown text

def ofLong (text : String) : Except Ambiguity Argument :=
  let (name, attached) := splitEquals text.toList
  let name := String.ofList name
  let attached := attached.map String.ofList
  match OptionName.ofLong? name with
  | some option => .ok (long option attached)
  | none =>
      match OptionName.all.filter fun option => option.long.startsWith name with
      | [] => .ok (withoutOption text)
      | [option] => .ok (long option attached)
      | candidates => .error ⟨text, candidates⟩

def classify (text : String) : Except Ambiguity Argument :=
  match text.toList with
  | [] | ['-'] => .ok (value text)
  | '-' :: '-' :: _ => ofLong text
  | '-' :: 'h' :: attached => .ok (short (String.ofList attached))
  | '-' :: _ => .ok (withoutOption text)
  | _ => .ok (value text)

/-- Classifies all arguments; behind the first separator there are only values. -/
def classifyAll : List String → Except Ambiguity (List Argument)
  | [] => .ok []
  | text :: rest =>
      if text = "--" then .ok (separator :: rest.map value)
      else do
        let first ← classify text
        let others ← classifyAll rest
        return first :: others

end Argument

end Chip8.CommandLine
