import TapeMachine.Rejection
import TapeMachine.Tape

/-!
# TapeMachine.Failure

How an evaluation can come to an end before the program does.

* `Failure` — what the user is told about: a rejected text, an overrun of the tape, an I/O error,
  the step limit, a cancellation.
* `Fault`   — what only abandons the evaluation: the machine was asked for something that cannot
  be had.
* `Ending`  — how an evaluation ended.
-/

namespace TapeMachine

structure Site where
  ip : Nat
  offset : Nat
  deriving DecidableEq

inductive Failure where
  | rejected (cause : Rejection)
  | overrun (site : Site) (cause : Overrun)
  /-- A byte could not be read or written; `text` says why. -/
  | io (site : Site) (text : String)
  | stepLimit (limit : Nat)
  | canceled
  deriving DecidableEq

namespace Failure

def message : Failure → String
  | rejected cause => s!"Parsing error: {cause.message}"
  | overrun site (.pastLast pointer) =>
    s!"Out of memory at instruction {site.ip} (ptr={pointer})"
  | overrun site .belowFirst => s!"Access violation at instruction {site.ip}"
  | io site text => s!"I/O error at instruction {site.ip}: {text}"
  | stepLimit limit => s!"Execution aborted: step limit exceeded ({limit})"
  | canceled => "Execution aborted: cancelled"

/-- The offset of the character to blame, if there is one. -/
def offset? : Failure → Option Nat
  | rejected cause => cause.offset?
  | overrun site _ => some site.offset
  | io site _ => some site.offset
  | stepLimit _ => none
  | canceled => none

end Failure

/-- A reason to abandon the work without a report. -/
inductive Fault where
  | tapeTooLarge
  /-- A bracket without a partner in the jump table had to be followed. -/
  | unpairedBracket
  /-- Standard output refused a line that is not program output; `text` says why. -/
  | printing (text : String)
  /-- The log could not be set up; `text` says why. -/
  | logging (text : String)
  deriving DecidableEq

def Fault.message : Fault → String
  | tapeTooLarge => "capacity overflow"
  | unpairedBracket => "validated bracket"
  | printing text => s!"failed printing to stdout: {text}"
  | logging text => text

inductive Ending where
  | finished
  | failed (cause : Failure)
  | broken (fault : Fault)
  deriving DecidableEq

end TapeMachine
