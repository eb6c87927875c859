import TapeMachine.Machine.Table

/-!
# TapeMachine.Machine.Step

One step of the machine.

* `Machine.perform`  — an instruction in the live mode.
* `Machine.rehearse` — an instruction in the table mode, which leaves input and output alone.
* `Machine.step`     — an instruction together with its row of the table, the move of the counter
  and the count. A step that fails leaves the counter and the count as they are.
-/

namespace TapeMachine

inductive Trouble where
  | overrun (cause : Overrun)
  | io (text : String)
  deriving DecidableEq

def Trouble.failure (site : Site) : Trouble → Failure
  | overrun cause => .overrun site cause
  | io text => .io site text

/-- The outcome of a step: the machine goes on, or the evaluation is over. -/
inductive Step where
  | next (m : Machine)
  | stop (ending : Ending) (m : Machine)

namespace Machine

/-- The machine with its tape after a move, or as it was, with the trouble. -/
def moved (m : Machine) : Except Overrun Tape → Machine × Option Trouble
  | .ok tape => ({ m with tape := tape }, none)
  | .error cause => (m, some (.overrun cause))

def adjust (i : Instruction) (m : Machine) : Machine × Option Trouble :=
  match i with
  | .increment => ({ m with tape := m.tape.increment }, none)
  | .decrement => ({ m with tape := m.tape.decrement }, none)
  | .moveRight => m.moved m.tape.forward
  | .moveLeft => m.moved m.tape.backward
  | _ => (m, none)

/-- Reads a byte into the cell under the pointer. After a failure the cell is as before. -/
def receive : Machine → Machine × Option Trouble
  | ⟨tape, pc, steps, input, output, control⟩ =>
    match input.receive with
    | ⟨answer, unread, canceled⟩ =>
      let control := control.map (·.cancelIf canceled)
      match answer with
      | .ok byte => (⟨tape.store byte, pc, steps, unread, output, control⟩, none)
      | .error text => (⟨tape, pc, steps, unread, output, control⟩, some (.io text))

/-- Writes by means of `act`, and cancels the evaluation when enough is written for that. -/
def sendBy (act : Output → Output × Option String) : Machine → Machine × Option Trouble
  | ⟨tape, pc, steps, input, output, control⟩ =>
    match act output with
    | (output, refused) =>
      (⟨tape, pc, steps, input, output, control.map (·.cancelIf output.cancels)⟩,
        refused.map .io)

def perform (i : Instruction) (m : Machine) : Machine × Option Trouble :=
  match i with
  | .read => m.receive
  | .write =>
    let byte := m.tape.cell
    m.sendBy (Output.sendByte byte)
  | i => m.adjust i

def rehearse (i : Instruction) (m : Machine) : Machine × Option Trouble :=
  match i with
  | .read => ({ m with tape := m.tape.store 0 }, none)
  | .write => (m, none)
  | i => m.adjust i

/-- The end of a step: the counter moves and the step counts, unless there was trouble. -/
def conclude (job : Job) (flow : Flow) : Machine × Option Trouble → Step
  | (m, none) => .next { m with pc := flow.counter m.pc, steps := m.steps + 1 }
  | (m, some trouble) => .stop (.failed (trouble.failure (job.site m.pc))) m

def step (job : Job) (i : Instruction) (m : Machine) : Step :=
  match job.flow? m.pc m.tape.cell i with
  | none => .stop (.broken .unpairedBracket) m
  | some flow =>
    match job.mode with
    | .live => conclude job flow (m.perform i)
    | .table =>
      let number := m.steps
      let before := m.view i
      match m.rehearse i with
      | (m, none) =>
        let line := Table.row number before (Table.action before flow m.tape)
        conclude job flow (m.sendBy (Output.writeLine line))
      | (m, some trouble) => conclude job flow (m, some trouble)

end Machine

end TapeMachine
