import TapeMachine.Machine.Run

/-!
# TapeMachine.Interpreter

An interpreter owns a tape and evaluates one text after the other on it. Every piece of work
begins with a reset, so that nothing is left of earlier work.

* `Interpreter.check`    — whether a text is a program, and its size.
* `Interpreter.execute`  — an evaluation in a given mode, with the notes that it leaves in the
  log: the reset, the loading, the start, every step if asked for, and the end.
* `Interpreter.evaluate`, `tabulate` — the two modes.
-/

namespace TapeMachine

structure Summary where
  instructions : Nat
  loops : Nat
  deriving DecidableEq

/-- Something that an interpreter notes in the log. -/
inductive Note where
  | reset
  | loaded (summary : Summary)
  | rejected (cause : Rejection)
  | started (policy : Policy) (capacity : Nat)
  | stepping (view : View)
  | finished (steps : Nat)
  | failed (steps : Nat) (cause : Failure)
  deriving DecidableEq

structure Interpreter where
  tape : Tape
  program : Program
  jumps : JumpTable
  pc : Nat
  control : Option Control

structure Evaluation where
  ending : Ending
  interpreter : Interpreter
  input : Input
  output : Output
  notes : Array Note

namespace Interpreter

def ofTape (tape : Tape) : Interpreter := ⟨tape, .empty, .empty, 0, none⟩

def new (capacity : Nat) (policy : Policy) : Interpreter := ofTape (Tape.new capacity policy)

def setControl (control : Control) (it : Interpreter) : Interpreter :=
  { it with control := some control }

def cancel (it : Interpreter) : Interpreter :=
  { it with control := it.control.map ({ · with canceled := true }) }

def clearCancel (it : Interpreter) : Interpreter :=
  { it with control := it.control.map ({ · with canceled := false }) }

/-- Zeros the tape, drops what is loaded and clears the flag of the control. -/
def reset (it : Interpreter) : Interpreter where
  tape := it.tape.reset
  program := .empty
  jumps := .empty
  pc := 0
  control := it.control.map ({ · with canceled := false })

/-- A text as a program with its jump table, or why it is none. -/
def read (source : String) : Except Rejection (Program × JumpTable) :=
  match Program.ofSource source with
  | .error cause => .error cause
  | .ok program =>
    match JumpTable.ofProgram program with
    | .error cause => .error cause
    | .ok jumps => .ok (program, jumps)

def summary (program : Program) (jumps : JumpTable) : Summary := ⟨program.size, jumps.pairs⟩

/-- Loads a text without evaluating it. A text that is rejected leaves the interpreter reset. -/
def check (source : String) (it : Interpreter) :
    Except Rejection Summary × Interpreter × Array Note :=
  let it := it.reset
  match read source with
  | .error cause => (.error cause, it, #[.reset])
  | .ok (program, jumps) =>
    let summary := summary program jumps
    (.ok summary, { it with program := program, jumps := jumps }, #[.reset, .loaded summary])

def lastNote (steps : Nat) : Ending → List Note
  | .finished => [.finished steps]
  | .failed cause => [.failed steps cause]
  | .broken _ => []

/-- Evaluates a text; `none` means that the fuel ran out. -/
def execute (mode : Mode) (traced : Bool) (fuel : Nat) (source : String) (input : Input)
    (output : Output) (it : Interpreter) : Option Evaluation :=
  match it.reset with
  | ⟨tape, program, jumps, pc, control⟩ =>
    match read source with
    | .error cause =>
      some ⟨.failed (.rejected cause), ⟨tape, program, jumps, pc, control⟩, input, output,
        #[.reset, .rejected cause]⟩
    | .ok (program, jumps) =>
      let opening : Array Note :=
        #[.reset, .loaded (summary program jumps), .started tape.policy tape.capacity]
      let m : Machine := ⟨tape, pc, 0, input, output, control⟩
      match m.run ⟨program, jumps, mode⟩ traced fuel with
      | none => none
      | some ⟨ending, m, views⟩ =>
        some ⟨ending, ⟨m.tape, program, jumps, m.pc, m.control⟩, m.input, m.output,
          opening ++ views.map Note.stepping ++ lastNote m.steps ending⟩

def evaluate (traced : Bool) (fuel : Nat) (source : String) (input : Input) (output : Output)
    (it : Interpreter) : Option Evaluation :=
  it.execute .live traced fuel source input output

def tabulate (traced : Bool) (fuel : Nat) (source : String) (output : Output)
    (it : Interpreter) : Option Evaluation :=
  it.execute .table traced fuel source [] output

end Interpreter

end TapeMachine
