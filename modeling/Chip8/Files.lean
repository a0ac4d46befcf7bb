import Chip8.Text.Quoted

/-! Opening files by name in a working directory. A name is walked component by
component; the first component that stops the walk decides the error. -/

set_option autoImplicit false

namespace Chip8.Files

/-- Why a file could not be opened: the system's number and its words. -/
structure OpenError where
  code : Nat
  reason : String
  deriving DecidableEq, Repr

namespace OpenError

def notFound : OpenError := ⟨2, "No such file or directory"⟩

def notADirectory : OpenError := ⟨20, "Not a directory"⟩

def isADirectory : OpenError := ⟨21, "Is a directory"⟩

def nameTooLong : OpenError := ⟨36, "File name too long"⟩

def known : List OpenError := [notFound, notADirectory, isADirectory, nameTooLong]

def message (e : OpenError) (name : String) : String :=
  "[Errno " ++ toString e.code ++ "] " ++ e.reason ++ ": " ++ Text.quoted name

end OpenError

abbrev Contents := List UInt8

/-- The files below a working directory by their path; a directory has no
contents. Directories on the way to an entry exist. -/
structure Directory where
  entries : List (List String × Option Contents)

inductive Node where
  | file (contents : Contents)
  | directory

namespace Directory

def ofNames (named : List (String × Option Contents)) : Directory :=
  ⟨named.map fun (name, contents) =>
    ((name.splitOn "/").filter fun part => part ≠ "" ∧ part ≠ ".", contents)⟩

def node? (d : Directory) (path : List String) : Option Node :=
  match d.entries.lookup path with
  | some (some contents) => some (.file contents)
  | some none => some .directory
  | none => if d.entries.any fun entry => path.isPrefixOf entry.1 then some .directory else none

/-- Where a walk stands: in a directory below the working directory, or
somewhere outside, where nothing is known to exist. -/
inductive Place where
  | inside (path : List String)
  | outside

def Place.parent : Place → Place
  | inside [] => outside
  | inside path => inside path.dropLast
  | outside => outside

def maxComponent : Nat := 255

def maxPath : Nat := 4095

def walk (d : Directory) (place : Place) : List String → Except OpenError Contents
  | [] => .error .isADirectory
  | part :: rest =>
      if part = "" ∨ part = "." then walk d place rest
      else if part = ".." then walk d place.parent rest
      else if part.utf8ByteSize > maxComponent then .error .nameTooLong
      else
        match place with
        | .outside => .error .notFound
        | .inside path =>
            match d.node? (path ++ [part]) with
            | none => .error .notFound
            | some .directory => walk d (.inside (path ++ [part])) rest
            | some (.file contents) =>
                if rest.isEmpty then .ok contents else .error .notADirectory

/-- The contents of the file of that name. A name that starts with a slash is
sought outside the working directory. -/
def read (d : Directory) (name : String) : Except OpenError Contents :=
  if name.isEmpty then .error .notFound
  else if name.utf8ByteSize > maxPath then .error .nameTooLong
  else d.walk (if name.startsWith "/" then .outside else .inside []) (name.splitOn "/")

end Directory

end Chip8.Files
