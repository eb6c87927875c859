/-!
# TapeMachine.Rejection

Why a text is not a program. A position counts instructions from one; an offset counts the
characters of the text from zero, comments included.
-/

namespace TapeMachine

inductive Rejection where
  | empty
  /-- A `]` that no earlier `[` waits for. -/
  | unmatchedClose (position offset : Nat)
  /-- A `[` that is still open at the end of the text. -/
  | unmatchedOpen (position offset : Nat)
  deriving DecidableEq

namespace Rejection

def message : Rejection → String
  | empty => "Empty instruction set given"
  | unmatchedClose position _ => s!"']' without matching '[' (position: {position})"
  | unmatchedOpen position _ => s!"'[' without matching ']' (position: {position})"

def position? : Rejection → Option Nat
  | empty => none
  | unmatchedClose position _ => some position
  | unmatchedOpen position _ => some position

def offset? : Rejection → Option Nat
  | empty => none
  | unmatchedClose _ offset => some offset
  | unmatchedOpen _ offset => some offset

end Rejection

end TapeMachine
