import TapeMachine.Failure
import TapeMachine.Text.Numeral

/-!
# TapeMachine.Report

How failures are reported to the user: a message and, when a character is to blame, the part of
the text around it with a caret below that character.

* `Report.window`  — the characters shown of the text: up to 32 before the one to blame, itself,
  and up to 32 after it, all on one line.
* `Report.context` — message, window and caret.
* `Failure.report` — the report of a failure.
-/

namespace TapeMachine

namespace Report

def radius : Nat := 32

def windowStart (position : Nat) : Nat := position - radius

/-- The index after the last character shown of a text of `count` characters. Positions are words,
and so is their sum. -/
def windowEnd (position count : Nat) : Nat :=
  min ((position + radius + 1) % Text.wordSize) count

/-- White space of every kind is shown as a blank, so that the caret stays in its column. -/
def flatten (c : Char) : Char := if Text.isBlank c then ' ' else c

def window (code : List Char) (position : Nat) : List Char :=
  let start := windowStart position
  ((code.drop start).take (windowEnd position code.length - start)).map flatten

/-- A message with the text around a position and a caret below that position. -/
def context (message code : String) (position : Nat) : String :=
  let indent := List.replicate (position - windowStart position) ' '
  message ++ "\n  " ++ String.ofList (window code.toList position) ++ "\n  " ++
    String.ofList indent ++ "^\n"

/-- The label of an error; a terminal is given it painted. -/
def errorLabel (terminal : Bool) (paint : String → String) : String :=
  let label := "error"
  if terminal then paint label else label

def labelled (program : Option String) (label message : String) : String :=
  match program with
  | none => label ++ ": " ++ message
  | some program => program ++ ": " ++ label ++ ": " ++ message

/-- The first line of the report of a failure. Only what the user asked for, a limit or a
cancellation, goes without a label. -/
def headline (program : Option String) (failure : Failure) (label : String := "error") : String :=
  match failure with
  | .rejected cause => labelled program label s!"Parse error: {cause.message}"
  | .overrun site (.pastLast pointer) =>
    labelled program label s!"Runtime error: out of memory (ptr={pointer}) at instruction {site.ip}"
  | .overrun site .belowFirst =>
    labelled program label
      s!"Runtime error: access violation (ptr moved below 0) at instruction {site.ip}"
  | .io site text => labelled program label s!"I/O error: {text} at instruction {site.ip}"
  | .stepLimit limit => s!"Execution aborted: step limit exceeded ({limit})"
  | .canceled => "Execution aborted: cancelled"

end Report

def Failure.report (program : Option String) (code : String) (failure : Failure)
    (label : String := "error") : String :=
  let headline := Report.headline program failure label
  match failure.offset? with
  | none => headline ++ "\n"
  | some offset => Report.context headline code offset

end TapeMachine
