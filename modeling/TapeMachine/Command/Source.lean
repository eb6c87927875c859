/-!
# TapeMachine.Command.Source

Where the text of a program comes from: either from a file or from the words of the command line,
which are joined without anything between them.
-/

namespace TapeMachine.Command

inductive NoSource where
  | missing
  | conflict
  | unreadable (path error : String)
  deriving DecidableEq

def NoSource.message : NoSource → String
  | missing => "no program given"
  | conflict => "cannot use positional code together with --file"
  | unreadable path error => s!"failed to read program file {path}: {error}"

def readText (read : String → Except String ByteArray) (path : String) : Except String String :=
  match read path with
  | .error error => .error error
  | .ok bytes =>
    match String.fromUTF8? bytes with
    | some text => .ok text
    | none => .error "stream did not contain valid UTF-8"

def loadSource (read : String → Except String ByteArray) (file : Option String)
    (code : List String) : Except NoSource String :=
  match file, code with
  | some _, _ :: _ => .error .conflict
  | none, [] => .error .missing
  | some path, [] =>
    match readText read path with
    | .ok text => .ok text
    | .error error => .error (.unreadable path error)
  | none, code => .ok (String.join code)

end TapeMachine.Command
