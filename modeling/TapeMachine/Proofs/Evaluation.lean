import TapeMachine.Proofs.History
import TapeMachine.Proofs.Lockstep

/-!
# TapeMachine.Proofs.Evaluation

The evaluation of a text as the work of a machine.

* `Interpreter.EvaluatesTo` — what an evaluation comes to, given enough fuel.
* `evaluatesTo_of_error`, `evaluatesTo_of_ok` — a text that is rejected leaves the interpreter
  reset; any other leaves what the machine leaves that begins with the reset interpreter.
-/

namespace TapeMachine

namespace Interpreter

/-- With enough fuel the evaluation comes to an end, and leaves the interpreter `it'`. -/
def EvaluatesTo (mode : Mode) (traced : Bool) (source : String) (input : Input) (output : Output)
    (it : Interpreter) (ending : Ending) (it' : Interpreter) (input' : Input) (output' : Output) :
    Prop :=
  ∃ fuel notes, it.execute mode traced fuel source input output =
    some ⟨ending, it', input', output', notes⟩

/-- The interpreter that a machine leaves behind. -/
def ofMachine (program : Program) (jumps : JumpTable) (m : Machine) : Interpreter :=
  ⟨m.tape, program, jumps, m.pc, m.control⟩

/-- What a reset interpreter notes of the evaluation of a program that is loaded. -/
def notes (program : Program) (jumps : JumpTable) (it : Interpreter) (f : Finish) : Array Note :=
  #[.reset, .loaded (summary program jumps), .started it.tape.policy it.tape.capacity] ++
    f.views.map Note.stepping ++ lastNote f.machine.steps f.ending

variable {mode : Mode} {traced : Bool} {fuel : Nat} {source : String} {input input' : Input}
  {output output' : Output} {it it' : Interpreter} {ending : Ending} {cause : Rejection}
  {program : Program} {jumps : JumpTable}

theorem execute_of_error (h : read source = .error cause) :
    it.execute mode traced fuel source input output =
      some ⟨.failed (.rejected cause), it.reset, input, output, #[.reset, .rejected cause]⟩ := by
  simp only [execute, h]

theorem execute_of_ok (h : read source = .ok (program, jumps)) :
    it.execute mode traced fuel source input output =
      ((it.reset.machine input output).run ⟨program, jumps, mode⟩ traced fuel).map fun f =>
        ⟨f.ending, ofMachine program jumps f.machine, f.machine.input, f.machine.output,
          it.reset.notes program jumps f⟩ := by
  simp only [execute, h, machine, notes]
  split <;> rename_i hrun <;> rw [hrun] <;> rfl

theorem evaluatesTo_of_error (h : read source = .error cause) :
    EvaluatesTo mode traced source input output it ending it' input' output' ↔
      ending = .failed (.rejected cause) ∧ it' = it.reset ∧ input' = input ∧ output' = output := by
  simp only [EvaluatesTo, execute_of_error h]
  constructor
  · rintro ⟨_, _, he⟩
    cases he
    exact ⟨rfl, rfl, rfl, rfl⟩
  · rintro ⟨rfl, rfl, rfl, rfl⟩
    exact ⟨0, _, rfl⟩

theorem evaluatesTo_of_ok (h : read source = .ok (program, jumps)) :
    EvaluatesTo mode traced source input output it ending it' input' output' ↔
      ∃ m, (it.reset.machine input output).RunsTo ⟨program, jumps, mode⟩ traced ending m ∧
        it' = ofMachine program jumps m ∧ input' = m.input ∧ output' = m.output := by
  constructor
  · rintro ⟨fuel, notes, he⟩
    rw [execute_of_ok h] at he
    obtain ⟨⟨_, m, views⟩, hrun, hf⟩ := Option.map_eq_some_iff.1 he
    cases hf
    exact ⟨m, ⟨fuel, views, hrun⟩, rfl, rfl, rfl⟩
  · rintro ⟨m, ⟨fuel, views, hrun⟩, rfl, rfl, rfl⟩
    refine ⟨fuel, it.reset.notes program jumps ⟨ending, m, views⟩, ?_⟩
    rw [execute_of_ok h, hrun]
    rfl

/-- The evaluation of a text that is not rejected comes to no end if the machine comes to none. -/
theorem endless_of_ok (h : read source = .ok (program, jumps)) :
    (∀ fuel, it.execute mode traced fuel source input output = none) ↔
      (it.reset.machine input output).Endless ⟨program, jumps, mode⟩ traced := by
  refine forall_congr' fun fuel => ?_
  rw [execute_of_ok h, Option.map_eq_none_iff]

end Interpreter

end TapeMachine
