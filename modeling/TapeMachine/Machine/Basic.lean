import TapeMachine.Failure
import TapeMachine.Input
import TapeMachine.JumpTable
import TapeMachine.Output

/-!
# TapeMachine.Machine.Basic

The state of an evaluation.

* `Job`      — what stays fixed: the program, its jump table and the mode.
* `Machine`  — what changes: the tape, the counter, the number of steps, input and output, and
  the control under which the evaluation stands.
* `View`     — what can be seen of the machine before a step.
* `Machine.pending` — the instruction to be carried out next, or why there is none. The end of
  the program comes before a cancellation, and a cancellation before the step limit.
-/

namespace TapeMachine

inductive Mode where
  | live
  /-- A table with a row for every step is written instead; every read finds the end of the
  input. -/
  | table
  deriving DecidableEq

/-- A limit on the number of steps, and a flag by which the evaluation is cancelled. -/
structure Control where
  maxSteps : Option Nat := none
  canceled : Bool := false
  deriving DecidableEq

/-- Sets the flag if `now`, and leaves it as it is otherwise. -/
def Control.cancelIf (now : Bool) (c : Control) : Control :=
  { c with canceled := c.canceled || now }

/-- What stays fixed during an evaluation. -/
structure Job where
  program : Program
  jumps : JumpTable
  mode : Mode

/-- What changes during an evaluation. -/
structure Machine where
  tape : Tape
  pc : Nat
  steps : Nat
  input : Input
  output : Output
  control : Option Control

/-- What can be seen of a machine before it carries out an instruction. -/
structure View where
  ip : Nat
  pointer : Nat
  cell : UInt8
  instruction : Instruction
  deriving DecidableEq

inductive Flow where
  | onward
  | past (closing : Nat)
  | back (opening : Nat)
  deriving DecidableEq

def Flow.counter (ip : Nat) : Flow → Nat
  | onward => ip + 1
  | past closing => closing + 1
  | back opening => opening

namespace Job

def site (job : Job) (ip : Nat) : Site := ⟨ip, job.program.locate ip⟩

/-- Where an instruction at `ip` sends the counter when the cell under the pointer holds `cell`.
A bracket that has to be followed needs a partner. -/
def flow? (job : Job) (ip : Nat) (cell : UInt8) : Instruction → Option Flow
  | .loopOpen => if cell = 0 then (job.jumps.target? ip).map .past else some .onward
  | .loopClose => if cell = 0 then some .onward else (job.jumps.target? ip).map .back
  | _ => some .onward

end Job

namespace Machine

def view (m : Machine) (i : Instruction) : View := ⟨m.pc, m.tape.pointer, m.tape.cell, i⟩

/-- The instruction to be carried out next, or how the evaluation ends. -/
def pending (job : Job) (m : Machine) : Except Ending Instruction :=
  match job.program.instruction? m.pc with
  | none => .error .finished
  | some i =>
    match m.control with
    | none => .ok i
    | some control =>
      if control.canceled then .error (.failed .canceled)
      else match control.maxSteps with
        | none => .ok i
        | some limit => if limit ≤ m.steps then .error (.failed (.stepLimit limit)) else .ok i

end Machine

end TapeMachine
