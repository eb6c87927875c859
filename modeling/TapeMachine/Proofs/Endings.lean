import TapeMachine.Proofs.Bounds
import TapeMachine.Proofs.Offsets
import TapeMachine.Proofs.Rehearsal
import TapeMachine.Proofs.Undisturbed

/-!
# TapeMachine.Proofs.Endings

The ways in which the evaluation of a text does not end, and what has no part in how it ends.

* `Interpreter.unbroken_of_execute`   — an interpreter never abandons a text: it evaluates a
  program with that program's own table.
* `Interpreter.uncanceled_of_execute` — it does not end with a cancellation when nobody cancels.
* `Interpreter.execute_mono`, `EvaluatesTo.retraced` — more fuel does not change what an evaluation
  comes to, and neither does the keeping of views.
* `Interpreter.Endless` — an evaluation that comes to nothing.
-/

namespace TapeMachine

namespace Machine

variable {job : Job} {traced : Bool} {fuel n : Nat} {m m' : Machine} {ending : Ending} {f : Finish}

theorem Quiet.uncanceled_of_stop (hq : m.Quiet) (hs : m.advance job = .stop ending m') :
    ending ≠ .failed .canceled := by
  rintro rfl
  rcases advance_stop hs with ⟨hp, _⟩ | ⟨i, _, hstep⟩
  · rcases pending_eq_error hp with ⟨hfinished, _⟩ | ⟨_, ⟨_, hflag⟩ | ⟨limit, hlimit, _⟩⟩
    · cases hfinished
    · rw [hq.flag] at hflag
      cases hflag
    · cases hlimit
  · rcases (step_stop hstep).2 with ⟨hbroken, _⟩ | ⟨trouble, htrouble⟩
    · cases hbroken
    · cases trouble <;> cases htrouble

theorem Quiet.uncanceled (hlive : job.mode = .live) (hq : m.Quiet)
    (h : m.run job traced fuel = some f) : f.ending ≠ .failed .canceled := by
  rw [run_of_begin (begin_live hlive m)] at h
  obtain ⟨n, _, last, hlast, hstop⟩ := endsAfter_of_proceed h
  exact (hq.of_after hlive hlast).1.uncanceled_of_stop hstop

/-- A table is written to an output that never prompts a cancellation, and reads nothing that
could: it ends like a live evaluation that finds the input used up. -/
theorem uncanceled_of_run (hinput : Input.Event.cancel ∉ m.input) (houtput : m.output.Flawless)
    (hflag : m.canceled = false) (h : m.run job traced fuel = some f) :
    f.ending ≠ .failed .canceled := by
  obtain ⟨program, jumps, mode⟩ := job
  cases mode with
  | live => exact Quiet.uncanceled rfl ⟨hinput, houtput.cancelAt, hflag⟩ h
  | table =>
    have hflawless : ({} : Output).Flawless := ⟨rfl, rfl, rfl, rfl⟩
    have hrehearses : Rehearses m m.bare := ⟨rfl, houtput, hflawless, nofun⟩
    have hsame := hrehearses.run_eq program jumps traced traced fuel
    rw [h] at hsame
    obtain ⟨f', hlive, hf'⟩ := Option.map_eq_some_iff.1 hsame.symm
    have hending : f'.ending = f.ending := congrArg Prod.fst hf'
    rw [← hending]
    have hquiet : m.bare.Quiet := ⟨List.not_mem_nil, rfl, hflag⟩
    exact hquiet.uncanceled rfl hlive

theorem RunsTo.retraced (h : m.RunsTo job traced ending m') (traced' : Bool) :
    m.RunsTo job traced' ending m' := by
  cases hb : m.begin job with
  | mk m₁ refused =>
    cases refused with
    | none => exact (runsTo_iff_of_begin hb).2 ((runsTo_iff_of_begin hb).1 h)
    | some trouble =>
      obtain ⟨fuel, views, hrun⟩ := h
      rw [run, hb] at hrun
      refine ⟨fuel, views, ?_⟩
      rw [run, hb]
      exact hrun

end Machine

namespace Interpreter

variable {mode : Mode} {traced : Bool} {fuel more : Nat} {source : String}
  {input input' : Input} {output output' : Output} {it it' : Interpreter} {ending : Ending}
  {e : Evaluation}

theorem canceled_reset (it : Interpreter) (input : Input) (output : Output) :
    (it.reset.machine input output).canceled = false := by
  show (it.control.map ({ · with canceled := false })).any (·.canceled) = false
  cases it.control <;> rfl

theorem unbroken_of_execute (h : it.execute mode traced fuel source input output = some e)
    (fault : Fault) : e.ending ≠ .broken fault := by
  obtain ⟨ending, it', input', output', notes⟩ := e
  cases executes_of_execute h with
  | rejected hread => nofun
  | @ran program jumps _ m hread hcall =>
    have hjumps : JumpTable.ofProgram program = .ok jumps := (read_eq_ok hread).2
    have hstart : (it.reset.machine input output).pc ≤ program.size := Nat.zero_le _
    exact (Machine.Reachable.start.endsInBounds hjumps hstart hcall).unbroken fault

theorem uncanceled_of_execute (hinput : Input.Event.cancel ∉ input) (houtput : output.Flawless)
    (h : it.execute mode traced fuel source input output = some e) :
    e.ending ≠ .failed .canceled := by
  cases hread : read source with
  | error cause =>
    rw [execute_of_error hread] at h
    cases h
    nofun
  | ok loaded =>
    obtain ⟨program, jumps⟩ := loaded
    rw [execute_of_ok hread] at h
    obtain ⟨f, hrun, rfl⟩ := Option.map_eq_some_iff.1 h
    exact Machine.uncanceled_of_run hinput houtput (canceled_reset it input output) hrun

theorem execute_mono (hle : fuel ≤ more)
    (h : it.execute mode traced fuel source input output = some e) :
    it.execute mode traced more source input output = some e := by
  cases hread : read source with
  | error cause =>
    rw [execute_of_error hread] at h ⊢
    exact h
  | ok loaded =>
    obtain ⟨program, jumps⟩ := loaded
    rw [execute_of_ok hread] at h ⊢
    obtain ⟨f, hrun, hf⟩ := Option.map_eq_some_iff.1 h
    rw [Machine.run_mono hle hrun, Option.map_some, hf]

theorem EvaluatesTo.retraced
    (h : EvaluatesTo mode traced source input output it ending it' input' output')
    (traced' : Bool) :
    EvaluatesTo mode traced' source input output it ending it' input' output' := by
  cases hread : read source with
  | error cause => exact (evaluatesTo_of_error hread).2 ((evaluatesTo_of_error hread).1 h)
  | ok loaded =>
    obtain ⟨program, jumps⟩ := loaded
    obtain ⟨m, hrun, hm⟩ := (evaluatesTo_of_ok hread).1 h
    exact (evaluatesTo_of_ok hread).2 ⟨m, hrun.retraced traced', hm⟩

/-- The evaluation of the text comes to no end. -/
def Endless (mode : Mode) (source : String) (input : Input) (output : Output) (it : Interpreter) :
    Prop :=
  ∀ traced fuel, it.execute mode traced fuel source input output = none

theorem endless_of_execute (h : ∀ fuel, it.execute mode traced fuel source input output = none) :
    it.Endless mode source input output := by
  intro traced' fuel
  refine Option.eq_none_iff_forall_ne_some.2 fun e he => ?_
  obtain ⟨fuel', notes, hfuel⟩ := EvaluatesTo.retraced ⟨fuel, e.notes, he⟩ traced
  rw [h fuel'] at hfuel
  cases hfuel

end Interpreter

end TapeMachine
