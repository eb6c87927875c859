import TapeMachine.Log.Library
import TapeMachine.Report

/-!
# TapeMachine.Command.Host

What a process finds when it starts, and what it leaves behind.

* `Host`    — files, streams and variables, and the answers of the libraries that the process asks.
* `Outcome` — the process exits with a status, or is abandoned.
-/

namespace TapeMachine.Command

/-- The surroundings of a process. Standard error takes everything. -/
structure Host where
  /-- The word by which the process was started. -/
  program : String
  lookup : String → Option String
  read : String → Except String ByteArray
  input : Input
  output : Output
  /-- Whether standard error is a terminal. -/
  terminal : Bool
  /-- What a terminal is given so that it shows a text bold and red. -/
  paint : String → String
  log : Log.Library
  /-- The directory in which programs keep the settings of the user. -/
  configHome : Option String
  /-- Why the handler of interrupts cannot be installed. -/
  handler : Option String
  /-- The number of steps that an evaluation has made when so many milliseconds are over; `none` if
  it has come to its end by then. -/
  clock : Nat → Option Nat

def Host.errorLabel (h : Host) : String := Report.errorLabel h.terminal h.paint

/-- What an orderly exit leaves behind. -/
structure Transcript where
  unread : Input
  output : Output
  errors : String
  log : List Log.Event

inductive Outcome where
  | exited (status : Nat) (transcript : Transcript)
  | abandoned (fault : Fault) (output : Output)

def Outcome.filtered (s : Log.Selection) : Outcome → Outcome
  | exited status t => .exited status { t with log := t.log.filter s.admits }
  | outcome => outcome

/-- An exit before anything is read, written or logged. -/
def explained (h : Host) (status : Nat) (errors : String) : Outcome :=
  .exited status ⟨h.input, h.output, errors, []⟩

end TapeMachine.Command
