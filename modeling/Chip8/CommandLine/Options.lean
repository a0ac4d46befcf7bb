import Chip8.CommandLine.Argument
import Chip8.Clock
import Chip8.Log.Logger
import Chip8.Palette
import Chip8.Text.Numeral
import Chip8.Window

/-! The settings of a run, read from the arguments from left to right. The first
fault found ends the reading. -/

set_option autoImplicit false

namespace Chip8.CommandLine

inductive UsageError where
  | ambiguous (ambiguity : Ambiguity)
  | expectedValue (option : OptionName)
  | unexpectedValue (option : OptionName) (text : String)
  | notAnInteger (option : OptionName) (text : String)
  | notANumber (option : OptionName) (text : String)
  | notPositive (option : OptionName) (text : String)
  | notAChoice (option : OptionName) (text : String) (choices : List String)
  | romMissing
  | unrecognized (texts : List String)
  | cyclesMissing

namespace UsageError

def aboutOption (option : OptionName) (text : String) : String :=
  "argument " ++ option.display ++ ": " ++ text

def message : UsageError → String
  | ambiguous a =>
      "ambiguous option: " ++ a.text ++ " could match " ++
        ", ".intercalate (a.candidates.map OptionName.long)
  | expectedValue option => aboutOption option "expected one argument"
  | unexpectedValue option text =>
      aboutOption option ("ignored explicit argument " ++ Text.quoted text)
  | notAnInteger option text => aboutOption option ("invalid int value: " ++ Text.quoted text)
  | notANumber option text =>
      aboutOption option ("invalid positive_float value: " ++ Text.quoted text)
  | notPositive option text => aboutOption option ("must be positive, got " ++ text)
  | notAChoice option text choices =>
      aboutOption option ("invalid choice: " ++ Text.quoted text ++ " (choose from " ++
        ", ".intercalate (choices.map Text.quoted) ++ ")")
  | romMissing => "the following arguments are required: rom"
  | unrecognized texts => "unrecognized arguments: " ++ " ".intercalate texts
  | cyclesMissing => "--headless requires --cycles"

end UsageError

structure Settings where
  scale : Int
  scheme : Scheme
  delay : Number
  rate : Number
  modern : Bool
  seed : Int
  headless : Bool
  cycles : Option Int
  level : Log.Level

namespace Settings

def default : Settings where
  scale := Window.defaultScale
  scheme := .classic
  delay := Clock.defaultDelay
  rate := Clock.defaultRate
  modern := false
  seed := 0
  headless := false
  cycles := none
  level := .info

def integer (option : OptionName) (text : String) : Except UsageError Int :=
  match Text.readInt? text with
  | some value => .ok value
  | none => .error (.notAnInteger option text)

/-- What is not a number passes as positive. -/
def positive (option : OptionName) (text : String) : Except UsageError Number :=
  match Text.readFloat? text with
  | none => .error (.notANumber option text)
  | some value => if value ≤ 0.0 then .error (.notPositive option text) else .ok (.float value)

def chosenScheme (text : String) : Except UsageError Scheme :=
  match Scheme.ofName text with
  | .ok scheme => .ok scheme
  | .error _ => .error (.notAChoice .colorScheme text Scheme.names)

/-- Levels are accepted in any case. -/
def chosenLevel (text : String) : Except UsageError Log.Level :=
  match Log.Level.parse text with
  | .ok level => .ok level
  | .error unknown => .error (.notAChoice .logLevel unknown.name (Log.Level.all.map Log.Level.name))

/-- Sets an option that takes a value. -/
def assign (s : Settings) (option : OptionName) (text : String) : Except UsageError Settings :=
  match option with
  | .scale => do return { s with scale := ← integer option text }
  | .colorScheme => do return { s with scheme := ← chosenScheme text }
  | .cycleDelay => do return { s with delay := ← positive option text }
  | .timerHz => do return { s with rate := ← positive option text }
  | .seed => do return { s with seed := ← integer option text }
  | .cycles => do return { s with cycles := some (← integer option text) }
  | .logLevel => do return { s with level := ← chosenLevel text }
  | .help | .modern | .headless => .error (.unexpectedValue option text)

/-- Sets an option that takes no value. -/
def raise (s : Settings) (option : OptionName) : Settings :=
  match option with
  | .modern => { s with modern := true }
  | .headless => { s with headless := true }
  | _ => s

end Settings

/-- What has been read so far. -/
structure Reading where
  settings : Settings
  rom : Option String
  /-- Arguments that fit nowhere. -/
  extras : List String

/-- What a command line asks for. -/
inductive Request where
  | help
  | run (rom : String) (settings : Settings)

namespace Reading

def start : Reading := ⟨.default, none, []⟩

def extra (r : Reading) (text : String) : Reading := { r with extras := r.extras ++ [text] }

/-- Faults that show only when everything has been read. -/
def finish (r : Reading) : Except UsageError Request :=
  match r.rom with
  | none => .error .romMissing
  | some rom =>
      if r.extras ≠ [] then .error (.unrecognized r.extras)
      else if r.settings.headless ∧ r.settings.cycles = none then .error .cyclesMissing
      else .ok (.run rom r.settings)

/-- The letter of the short help option may be repeated. A value attached to it,
or a further mark of an option, is refused; any other letter comes too late. -/
def shortHelp (attached : String) : Except UsageError Request :=
  match attached.toList.dropWhile (· = 'h') with
  | '=' :: value => .error (.unexpectedValue .help (String.ofList value))
  | '-' :: rest => .error (.unexpectedValue .help (String.ofList ('-' :: rest)))
  | _ => .ok .help

/-- Reads the arguments in order. The first value names the program and takes a
separator next to it along; help ends the reading at once. -/
def read (r : Reading) : List Argument → Except UsageError Request
  | [] => r.finish
  | .value text :: .separator :: rest =>
      match r.rom with
      | none => read { r with rom := some text } rest
      | some _ => read ((r.extra text).extra "--") rest
  | .value text :: rest =>
      match r.rom with
      | none => read { r with rom := some text } rest
      | some _ => read (r.extra text) rest
  | .separator :: .value text :: rest =>
      match r.rom with
      | none => read { r with rom := some text } rest
      | some _ => read ((r.extra "--").extra text) rest
  | .separator :: rest => read (r.extra "--") rest
  | .unknown text :: rest => read (r.extra text) rest
  | .short attached :: _ => shortHelp attached
  | .long option (some text) :: rest =>
      match r.settings.assign option text with
      | .error e => .error e
      | .ok settings => read { r with settings } rest
  | .long .help none :: _ => .ok .help
  | .long option none :: rest =>
      if option.takesValue then
        match rest with
        | .value text :: rest =>
            match r.settings.assign option text with
            | .error e => .error e
            | .ok settings => read { r with settings } rest
        | _ => .error (.expectedValue option)
      else read { r with settings := r.settings.raise option } rest

end Reading

/-- A line for the call and one for each option. -/
def Request.helpText : String :=
  "\n".intercalate
    ["usage: chip8vm [options] rom",
      "  -h, --help       show this text",
      "  --scale          window pixels per screen pixel",
      "  --color-scheme   one of " ++ ", ".intercalate Scheme.names,
      "  --cycle-delay    seconds that a cycle takes",
      "  --timer-hz       timer ticks per second",
      "  --modern         use the modern dialect",
      "  --seed           seed of the random bytes",
      "  --headless       run without a window",
      "  --cycles         stop after so many cycles",
      "  --log-level      one of " ++ ", ".intercalate (Log.Level.all.map Log.Level.name)]

/-- What the arguments ask for. Ambiguous options are found before anything is
read. -/
def Request.parse (arguments : List String) : Except UsageError Request :=
  match Argument.classifyAll arguments with
  | .error a => .error (.ambiguous a)
  | .ok classified => Reading.start.read classified

end Chip8.CommandLine
