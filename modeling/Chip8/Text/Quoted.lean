import Chip8.Text.Hexadecimal
import Chip8.Text.Printable

/-! Text in quotes. Single quotes are used unless the text holds single quotes
and no double ones; what cannot be printed is escaped by its code point. -/

set_option autoImplicit false

namespace Chip8.Text

def quoteFor (text : List Char) : Char :=
  if text.contains '\'' && !text.contains '"' then '"' else '\''

/-- The shortest of three escapes that holds the code point. -/
def escapeCode (code : Nat) : List Char :=
  if code < 0x100 then '\\' :: 'x' :: lowerHex 2 code
  else if code < 0x10000 then '\\' :: 'u' :: lowerHex 4 code
  else '\\' :: 'U' :: lowerHex 8 code

def escapeChar (quote c : Char) : List Char :=
  if c = quote ∨ c = '\\' then ['\\', c]
  else if c = '\n' then ['\\', 'n']
  else if c = '\r' then ['\\', 'r']
  else if c = '\t' then ['\\', 't']
  else if isPrintable c then [c]
  else escapeCode c.toNat

def quoted (text : String) : String :=
  let quote := quoteFor text.toList
  String.ofList (quote :: text.toList.flatMap (escapeChar quote) ++ [quote])

/-- A bracketed list of quoted texts. -/
def quotedList (texts : List String) : String :=
  "[" ++ ", ".intercalate (texts.map quoted) ++ "]"

end Chip8.Text
