import TapeMachine.Machine.Basic

/-!
# TapeMachine.Machine.Table

The table that an evaluation writes instead of doing input and output: two header lines and a row
for every step, with the state before the step and what the step did.
-/

namespace TapeMachine.Table

def header : List String :=
  ["STEP | IP  | PTR | CELL | INSTR | ACTION",
   "-----+-----+-----+------+-------+------------------------------------------------"]

def column (width : Nat) (text : String) : String :=
  text ++ String.ofList (List.replicate (width - text.length) ' ')

/-- What a step did: seen from the state before it, where it sent the counter, and the tape after
it. -/
def action (before : View) (flow : Flow) (after : Tape) : String :=
  match flow with
  | .past closing => s!"Cell is 0; jump past matching ']' at IP {closing}"
  | .back opening => s!"Cell != 0; jump back to matching '[' at IP {opening}"
  | .onward =>
    match before.instruction with
    | .increment => s!"Increment cell[{before.pointer}] from {before.cell} to {after.cell}"
    | .decrement => s!"Decrement cell[{before.pointer}] from {before.cell} to {after.cell}"
    | .moveRight | .moveLeft => s!"Moved pointer head to index {after.pointer}"
    | .read => "Read byte -> simulated EOF (set cell to 0)"
    | .write => s!"Output byte {before.cell} (suppressed in debug)"
    | .loopOpen => "Enter loop (cell != 0)"
    | .loopClose => "Exit loop (cell is 0)"

def row (step : Nat) (before : View) (action : String) : String :=
  column 4 (toString step) ++ " | " ++ column 3 (toString before.ip) ++ " | " ++
    column 3 (toString before.pointer) ++ " | " ++ column 4 (toString before.cell) ++ " |  " ++
    before.instruction.symbol.toString ++ "    | " ++ action

end TapeMachine.Table
