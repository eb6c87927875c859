import TapeMachine.Interpreter
import TapeMachine.Proofs.Course

/-!
# TapeMachine.Proofs.History

An interpreter has no memory of earlier work.

* `Interpreter.Executes`  — an evaluation during which others may set or clear the flag of the
  control at any moment; `executes_of_execute` says that an evaluation left alone is one of them.
* `Interpreter.Worked`    — what an interpreter can be after any amount of work, and the step limit
  of the last control that it was put under.
* `Interpreter.Fits`      — all that earlier work can leave behind a reset: the size of the tape, the
  policy and the limit. Every piece of work keeps it, and a reset depends on nothing else.
* `Interpreter.work_of_worked` — further work cannot tell the interpreter from a fresh one.
-/

namespace TapeMachine

theorem Tape.reset_eq_new {t : Tape} {capacity : Nat} (h : t.cells.size = max capacity 1) :
    t.reset = Tape.new capacity t.policy := by
  simp only [Tape.reset, Tape.new, h]

namespace Interpreter

/-- The machine that begins to evaluate what the interpreter has loaded. -/
def machine (it : Interpreter) (input : Input) (output : Output) : Machine :=
  ⟨it.tape, it.pc, 0, input, output, it.control⟩

/-- An evaluation of a text, during which others may set or clear the flag at any moment. It ends
with the interpreter, the input and the output that are given last. -/
inductive Executes (mode : Mode) (source : String) (input : Input) (output : Output)
    (it : Interpreter) : Ending → Interpreter → Input → Output → Prop where
  | rejected {cause : Rejection} (h : read source = .error cause) :
      Executes mode source input output it (.failed (.rejected cause)) it.reset input output
  | ran {program : Program} {jumps : JumpTable} {ending : Ending} {m : Machine}
      (h : read source = .ok (program, jumps))
      (hcall : Machine.Call ⟨program, jumps, mode⟩ (it.reset.machine input output) ending m) :
      Executes mode source input output it ending ⟨m.tape, program, jumps, m.pc, m.control⟩
        m.input m.output

/-- What an interpreter can be after any amount of work, beginning with a new one. The limit is
that of the last control it was put under, `none` if there was no control. -/
inductive Worked (capacity : Nat) (policy : Policy) :
    Option (Option Nat) → Interpreter → Prop where
  | new : Worked capacity policy none (new capacity policy)
  | control {limit : Option (Option Nat)} {it : Interpreter} (control : Control)
      (h : Worked capacity policy limit it) :
      Worked capacity policy (some control.maxSteps) (it.setControl control)
  | cancel {limit : Option (Option Nat)} {it : Interpreter} (h : Worked capacity policy limit it) :
      Worked capacity policy limit it.cancel
  | clearCancel {limit : Option (Option Nat)} {it : Interpreter}
      (h : Worked capacity policy limit it) : Worked capacity policy limit it.clearCancel
  | reset {limit : Option (Option Nat)} {it : Interpreter} (h : Worked capacity policy limit it) :
      Worked capacity policy limit it.reset
  | check {limit : Option (Option Nat)} {it : Interpreter} (source : String)
      (h : Worked capacity policy limit it) : Worked capacity policy limit (it.check source).2.1
  | execute {limit : Option (Option Nat)} {it it' : Interpreter} {mode : Mode} {source : String}
      {input input' : Input} {output output' : Output} {ending : Ending}
      (h : Worked capacity policy limit it)
      (hexec : Executes mode source input output it ending it' input' output') :
      Worked capacity policy limit it'

/-- A new interpreter, under a control with the given limit and a flag that is not set, if a limit
is given. -/
def fresh (capacity : Nat) (policy : Policy) : Option (Option Nat) → Interpreter
  | none => new capacity policy
  | some maxSteps => (new capacity policy).setControl { maxSteps, canceled := false }

/-- What a reset leaves as it is. -/
structure Fits (capacity : Nat) (policy : Policy) (limit : Option (Option Nat))
    (it : Interpreter) : Prop where
  capacity : it.tape.cells.size = max capacity 1
  policy : it.tape.policy = policy
  limit : it.control.map (·.maxSteps) = limit

variable {capacity : Nat} {policy : Policy} {limit : Option (Option Nat)}
  {it it' : Interpreter}

theorem fits_new : Fits capacity policy none (new capacity policy) :=
  ⟨Tape.size_cells_new capacity policy, rfl, rfl⟩

theorem fits_fresh (limit : Option (Option Nat)) :
    Fits capacity policy limit (fresh capacity policy limit) := by
  cases limit with
  | none => exact fits_new
  | some maxSteps => exact ⟨Tape.size_cells_new capacity policy, rfl, rfl⟩

theorem Fits.reset_eq (h : Fits capacity policy limit it) :
    it.reset =
      ⟨Tape.new capacity policy, .empty, .empty, 0, limit.map ({ maxSteps := · })⟩ := by
  have htape : it.tape.reset = Tape.new capacity policy := by
    rw [Tape.reset_eq_new h.capacity, h.policy]
  rw [reset, htape, ← h.limit, Option.map_map]
  rfl

namespace Fits

theorem setControl (h : Fits capacity policy limit it) (control : Control) :
    Fits capacity policy (some control.maxSteps) (it.setControl control) :=
  ⟨h.capacity, h.policy, rfl⟩

theorem flagged (h : Fits capacity policy limit it) (canceled : Bool) :
    Fits capacity policy limit
      { it with control := it.control.map ({ · with canceled := canceled }) } :=
  ⟨h.capacity, h.policy, (Option.map_map ..).trans h.limit⟩

theorem reset (h : Fits capacity policy limit it) : Fits capacity policy limit it.reset :=
  ⟨(it.tape.size_cells_reset).trans h.capacity, h.policy, (h.flagged false).limit⟩

theorem check (h : Fits capacity policy limit it) (source : String) :
    Fits capacity policy limit (it.check source).2.1 := by
  have hreset := h.reset
  rw [Interpreter.check]
  split
  · exact hreset
  · exact ⟨hreset.capacity, hreset.policy, hreset.limit⟩

/-- A call leaves the size of the tape, the policy and the limit as they are. -/
theorem execute {mode : Mode} {source : String} {input input' : Input} {output output' : Output}
    {ending : Ending} (h : Fits capacity policy limit it)
    (hexec : Executes mode source input output it ending it' input' output') :
    Fits capacity policy limit it' := by
  have hreset := h.reset
  cases hexec with
  | rejected _ => exact hreset
  | ran _ hcall =>
    have hkin := (Machine.Reachable.start.call hcall).kin
    exact ⟨hkin.capacity.trans hreset.capacity, hkin.policy.trans hreset.policy,
      hkin.limit.trans hreset.limit⟩

end Fits

theorem Worked.fits (h : Worked capacity policy limit it) : Fits capacity policy limit it := by
  induction h with
  | new => exact fits_new
  | control control _ ih => exact ih.setControl control
  | cancel _ ih => exact ih.flagged true
  | clearCancel _ ih => exact ih.flagged false
  | reset _ ih => exact ih.reset
  | check source _ ih => exact ih.check source
  | execute _ hexec ih => exact ih.execute hexec

/-! ## Work after a reset -/

theorem check_congr (h : it.reset = it'.reset) (source : String) :
    it.check source = it'.check source := by
  rw [check, check, h]

theorem execute_congr (h : it.reset = it'.reset) (mode : Mode) (traced : Bool) (fuel : Nat)
    (source : String) (input : Input) (output : Output) :
    it.execute mode traced fuel source input output =
      it'.execute mode traced fuel source input output := by
  rw [execute, execute, h]

theorem executes_congr {mode : Mode} {source : String} {input input' : Input}
    {output output' : Output} {ending : Ending} {after : Interpreter} (h : it.reset = it'.reset)
    (hexec : Executes mode source input output it ending after input' output') :
    Executes mode source input output it' ending after input' output' := by
  cases hexec with
  | rejected hread =>
    rw [h]
    exact .rejected hread
  | ran hread hcall =>
    rw [h] at hcall
    exact .ran hread hcall

/-- An evaluation that nobody interferes with is one in which nobody does. -/
theorem executes_of_execute {mode : Mode} {traced : Bool} {fuel : Nat} {source : String}
    {input : Input} {output : Output} {e : Evaluation}
    (h : it.execute mode traced fuel source input output = some e) :
    Executes mode source input output it e.ending e.interpreter e.input e.output := by
  rw [execute] at h
  cases hread : read source with
  | error cause =>
    rw [hread] at h
    cases h
    exact .rejected hread
  | ok loaded =>
    obtain ⟨program, jumps⟩ := loaded
    rw [hread] at h
    simp only at h
    split at h
    · cases h
    · rename_i hrun
      cases h
      exact .ran hread (Machine.call_of_run hrun)

/-- However an interpreter has worked, the work that it does next has the result, reads, writes and
leaves behind what it would on a fresh interpreter with the last step limit. That goes for
evaluations by themselves and for those that others may cancel. -/
theorem work_of_worked (h : Worked capacity policy limit it) :
    (∀ source, it.check source = (fresh capacity policy limit).check source) ∧
      (∀ traced fuel source input output,
        it.evaluate traced fuel source input output =
          (fresh capacity policy limit).evaluate traced fuel source input output) ∧
      (∀ traced fuel source output,
        it.tabulate traced fuel source output =
          (fresh capacity policy limit).tabulate traced fuel source output) ∧
      ∀ mode source input output ending it' input' output',
        Executes mode source input output it ending it' input' output' ↔
          Executes mode source input output (fresh capacity policy limit) ending it' input'
            output' := by
  have hreset : it.reset = (fresh capacity policy limit).reset :=
    h.fits.reset_eq.trans (fits_fresh limit).reset_eq.symm
  refine ⟨check_congr hreset, fun traced fuel source input output => ?_,
    fun traced fuel source output => ?_, fun mode source input output ending it' input' output' => ?_⟩
  · exact execute_congr hreset .live traced fuel source input output
  · exact execute_congr hreset .table traced fuel source [] output
  · exact ⟨executes_congr hreset, executes_congr hreset.symm⟩

/-- An evaluation that came to its step limit in the middle of a program is forgotten. -/
theorem evaluate_of_worked_limited :
    ∃ it, Worked 3 .strict (some (some 2)) it ∧ it.pc = 2 ∧ it.tape.pointer = 1 ∧
      it.evaluate false 9 "." [] {} =
        (fresh 3 .strict (some (some 2))).evaluate false 9 "." [] {} := by
  have hrun : ∃ e, ((new 3 .strict).setControl { maxSteps := some 2 }).execute .live false 9
      "+>+" [] {} = some e ∧ e.interpreter.pc = 2 ∧ e.interpreter.tape.pointer = 1 :=
    ⟨_, rfl, rfl, rfl⟩
  obtain ⟨e, he, hpc, hpointer⟩ := hrun
  have hworked := Worked.new.control { maxSteps := some 2 } |>.execute (executes_of_execute he)
  exact ⟨e.interpreter, hworked, hpc, hpointer, (work_of_worked hworked).2.1 false 9 "." [] {}⟩

end Interpreter

end TapeMachine
