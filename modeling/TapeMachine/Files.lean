/-!
# TapeMachine.Files

A tree of files and directories held in memory, and what reading a path in it gives: the bytes of
a file, or the text of the system's error.
-/

namespace TapeMachine

/-- Files and directories, by their names from the root on. Every directory on the way to a file
is there without being listed. -/
structure Files where
  files : List (List String × ByteArray)
  directories : List (List String)

namespace Files

def notFound : String := "No such file or directory (os error 2)"

def notADirectory : String := "Not a directory (os error 20)"

def nameTooLong : String := "File name too long (os error 36)"

def isADirectory : String := "Is a directory (os error 21)"

def nameLimit : Nat := 255

def pathLimit : Nat := 4096

def bytes? (f : Files) (place : List String) : Option ByteArray :=
  (f.files.find? (·.1 = place)).map (·.2)

def hasDirectory (f : Files) (place : List String) : Bool :=
  place = [] || f.directories.any (place.isPrefixOf ·) ||
    f.files.any fun (file, _) => place.isPrefixOf file && file ≠ place

def walk (f : Files) : List String → List String → Except String (List String)
  | place, [] => .ok place
  | place, name :: rest =>
    if (f.bytes? place).isSome then .error notADirectory
    else if !f.hasDirectory place then .error notFound
    else if name = "" ∨ name = "." then walk f place rest
    else if name = ".." then walk f place.dropLast rest
    else if nameLimit < name.utf8ByteSize then .error nameTooLong
    else walk f (place ++ [name]) rest

def read (f : Files) (path : String) : Except String ByteArray :=
  if path = "" then .error notFound
  else if path.toList.contains '\x00' then
    .error "file name contained an unexpected NUL byte"
  else if pathLimit ≤ path.utf8ByteSize then .error nameTooLong
  else
    match f.walk [] (path.splitOn "/") with
    | .error text => .error text
    | .ok place =>
      match f.bytes? place with
      | some bytes => .ok bytes
      | none => .error (if f.hasDirectory place then isADirectory else notFound)

end Files

end TapeMachine
