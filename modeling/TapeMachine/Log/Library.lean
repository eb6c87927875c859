import TapeMachine.Log.Event

/-!
# TapeMachine.Log.Library

What the command relies on to write its log: a library that reads a filter from the environment, or
else is given one.

* `Selection`         — which events are logged.
* `Library`           — what the library makes of the environment and of a filter.
* `Library.selection` — the events that the command has logged.
-/

namespace TapeMachine.Log

structure Selection where
  admits : Event → Bool

/-- Whether steps are logged. Events are told apart by where they come from, so that one step is as
good as another. -/
def Selection.admitsSteps (s : Selection) : Bool := s.admits (.noted (.stepping ⟨0, 0, 0, .read⟩))

/-- Why nothing comes of the environment. -/
inductive Complaint where
  /-- It has no filter, or one that makes no sense. -/
  | useless
  /-- The library gives up the whole process; `text` says why. -/
  | fatal (text : String)

structure Library where
  ofEnvironment : Except Complaint Selection
  ofFilter : String → Selection

/-- The filter when the environment has none: warnings, and on demand what this program does. -/
def standardFilter (verbose : Bool) : String := if verbose then "warn,bf_tape=debug" else "warn"

def Library.selection (l : Library) (verbose : Bool) : Except String Selection :=
  match l.ofEnvironment with
  | .ok s => .ok s
  | .error .useless => .ok (l.ofFilter (standardFilter verbose))
  | .error (.fatal text) => .error text

end TapeMachine.Log
