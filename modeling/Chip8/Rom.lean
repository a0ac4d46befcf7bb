import Chip8.Files
import Chip8.State

/-! Loading a program from a file. -/

set_option autoImplicit false

namespace Chip8.Rom

inductive Error where
  | unreadable (name : String) (error : Files.OpenError)
  | empty (name : String)
  | fault (fault : Fault)
  /-- No file can have a name with a null character. -/
  | nullInName

namespace Error

def kind : Error → String
  | unreadable .. | empty _ => "RomLoadError"
  | fault f => f.kind
  | nullInName => "ValueError"

def message : Error → String
  | unreadable name error => "Could not read ROM '" ++ name ++ "': " ++ error.message name
  | empty name => "ROM '" ++ name ++ "' is empty"
  | fault f => f.message
  | nullInName => "embedded null byte"

end Error

def readNotice (name : String) (size : Nat) : Log.Notice :=
  ⟨.info, "chip8vm.emulator", "Read " ++ toString size ++ " bytes from " ++ name⟩

/-- The bytes of a program file. -/
def contents (read : String → Except Files.OpenError Files.Contents) (name : String) :
    Except Error Files.Contents :=
  if name.contains '\x00' then .error .nullInName
  else
    match read name with
    | .error e => .error (.unreadable name e)
    | .ok [] => .error (.empty name)
    | .ok bytes => .ok bytes

/-- Loads the named file. That it was read is reported also when it then turns
out to be too large. -/
def load (read : String → Except Files.OpenError Files.Contents) (s : State) (name : String) :
    List Log.Notice × Except Error State :=
  match contents read name with
  | .error e => ([], .error e)
  | .ok bytes =>
      match s.loadProgram bytes with
      | .error f => ([readNotice name bytes.length], .error (.fault f))
      | .ok loaded => (readNotice name bytes.length :: State.loadNotices bytes, .ok loaded)

end Chip8.Rom
