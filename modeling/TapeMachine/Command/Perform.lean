import TapeMachine.Command.Arguments
import TapeMachine.Command.Serve
import TapeMachine.Log.Filter

/-!
# TapeMachine.Command.Perform

The command from the words of its command line on, as a program that needs no libraries.

* `World`      — variables, files and streams, and how fast the machine is.
* `World.host` — the same with answers for all that the command asks of libraries: the grammar of
  filters, the directory for settings, the colours of terminals, and a clock.
* `perform`    — reads the words and serves what they ask for.
-/

namespace TapeMachine.Command

structure World where
  lookup : String → Option String
  read : String → Except String ByteArray
  input : Input
  output : Output
  /-- The number of steps that the machine makes in a millisecond. -/
  pace : Nat
  program : String := "bf"
  terminal : Bool := false

def filterVariable : String := "RUST_LOG"

def configHome? (lookup : String → Option String) : Option String :=
  lookup "XDG_CONFIG_HOME" <|> (lookup "HOME").map (inDirectory · ".config")

/-- The text between the codes by which a terminal begins and ends to show it bold and red. -/
def boldRed (text : String) : String := "\x1b[1;31m" ++ text ++ "\x1b[0m"

def World.host (w : World) : Host where
  program := w.program
  lookup := w.lookup
  read := w.read
  input := w.input
  output := w.output
  terminal := w.terminal
  paint := boldRed
  log := .ofVariable (w.lookup filterVariable)
  configHome := configHome? w.lookup
  handler := none
  clock time := some (time * w.pace)

/-- What becomes of a command line. -/
inductive Reply where
  | refused (refusal : Refusal)
  | exited (status : Nat) (transcript : Transcript)
  | abandoned (fault : Fault) (output : Output)

def Outcome.reply : Outcome → Reply
  | exited status transcript => .exited status transcript
  | abandoned fault output => .abandoned fault output

def perform (w : World) (fuel : Nat) (line : List String) : Option Reply :=
  match Invocation.ofWords line with
  | .error refusal => some (.refused refusal)
  | .ok i => (serve w.host fuel i).map Outcome.reply

end TapeMachine.Command
