import TapeMachine.Proofs.Bounds
import TapeMachine.Proofs.Evaluation
import TapeMachine.Proofs.Offsets

/-!
# TapeMachine.Proofs.Loading

What an interpreter has loaded between two pieces of work.

* `Interpreter.Works`   — one piece of work, and the text that the interpreter is given for it.
* `Interpreter.Given`   — what an interpreter can be after any amount of work, with the last text
  that it was given.
* `Interpreter.Loaded`  — nothing is loaded, or the last text is, with its own table, and the
  counter stands in it. Every piece of work keeps that, `Works.loaded`.
* `Interpreter.InOrder` — that and what follows from it, together with the shape of the tape.
* `Interpreter.Rejects` — the text is no program, or its brackets cannot be paired.
* `given_inOrder`       — interpreters are in order at all times, and a text that is rejected is not
  even begun.
-/

namespace TapeMachine

namespace Interpreter

/-- One piece of work: the text that the interpreter is given for it, if there is one, and what
becomes of the interpreter. -/
inductive Works (it : Interpreter) : Option String → Interpreter → Prop where
  | control (control : Control) : Works it none (it.setControl control)
  | cancel : Works it none it.cancel
  | clearCancel : Works it none it.clearCancel
  | reset : Works it none it.reset
  | check (source : String) : Works it (some source) (it.check source).2.1
  | execute {mode : Mode} {source : String} {input input' : Input} {output output' : Output}
      {ending : Ending} {it' : Interpreter}
      (hexec : Executes mode source input output it ending it' input' output') :
      Works it (some source) it'

/-- What an interpreter can be after any amount of work, beginning with a new one, and the last text
that it was given, be it a program or not. -/
inductive Given (capacity : Nat) (policy : Policy) : Option String → Interpreter → Prop where
  | new : Given capacity policy none (new capacity policy)
  | work {last given : Option String} {it it' : Interpreter} (h : Given capacity policy last it)
      (hwork : Works it given it') : Given capacity policy (given.or last) it'

/-- Nothing is loaded, or the text is, with the table of its own program; and the counter stands at
an instruction or at the end. -/
structure Loaded (last : Option String) (it : Interpreter) : Prop where
  source : it.program = .empty ∧ it.jumps = .empty ∨
    ∃ source, last = some source ∧ Program.ofSource source = .ok it.program ∧
      JumpTable.ofProgram it.program = .ok it.jumps
  counter : it.pc ≤ it.program.size

/-- What holds of an interpreter at all times, given the last text that it was given. -/
structure InOrder (capacity : Nat) (policy : Policy) (last : Option String) (it : Interpreter) :
    Prop extends Loaded last it where
  /-- Every instruction has an offset, and no offset is left over. -/
  lengths : it.program.instructions.length = it.program.offsets.length
  sorted : it.program.offsets.Pairwise (· < ·)
  pointer : it.tape.pointer < it.tape.cells.size
  capacity : it.tape.cells.size = max capacity 1
  policy : it.tape.policy = policy

/-- The text is rejected, because it is no program or because of its brackets. -/
inductive Rejects (source : String) (cause : Rejection) : Prop where
  | program (h : Program.ofSource source = .error cause)
  | brackets {program : Program} (hprogram : Program.ofSource source = .ok program)
      (h : JumpTable.ofProgram program = .error cause)

variable {capacity : Nat} {policy : Policy} {last given : Option String} {source : String}
  {cause : Rejection} {it it' : Interpreter}

theorem Rejects.read_eq (h : Rejects source cause) : read source = .error cause := by
  cases h with
  | program h => rw [read, h]
  | brackets hprogram h =>
    rw [read, hprogram]
    simp only [h]

/-! ## What is loaded -/

theorem loaded_new : Loaded none (new capacity policy) := ⟨.inl ⟨rfl, rfl⟩, Nat.le_refl 0⟩

theorem Loaded.control (h : Loaded last it) (control : Option Control) :
    Loaded last { it with control := control } := ⟨h.source, h.counter⟩

theorem loaded_reset (last : Option String) (it : Interpreter) : Loaded last it.reset :=
  ⟨.inl ⟨rfl, rfl⟩, Nat.le_refl 0⟩

theorem loaded_check (source : String) (it : Interpreter) :
    Loaded (some source) (it.check source).2.1 := by
  rw [check]
  split
  · exact loaded_reset (some source) it
  · rename_i program jumps hread
    obtain ⟨hprogram, hjumps⟩ := read_eq_ok hread
    exact ⟨.inr ⟨source, rfl, hprogram, hjumps⟩, Nat.zero_le _⟩

/-- However an evaluation ends, its counter has stayed in its own program. -/
theorem loaded_execute {mode : Mode} {input input' : Input} {output output' : Output}
    {ending : Ending} (h : Executes mode source input output it ending it' input' output') :
    Loaded (some source) it' := by
  cases h with
  | rejected _ => exact loaded_reset (some source) it
  | @ran program jumps _ m hread hcall =>
    obtain ⟨hprogram, hjumps⟩ := read_eq_ok hread
    have hstart : (it.reset.machine input output).pc ≤ program.size := Nat.zero_le _
    have hcounter := (Machine.Reachable.start.call hcall).counter hjumps hstart
    exact ⟨.inr ⟨source, rfl, hprogram, hjumps⟩, hcounter⟩

/-- Every piece of work leaves loaded what was loaded, or the text that it was about, or nothing. -/
theorem Works.loaded (hwork : Works it given it') (h : Loaded last it) :
    Loaded (given.or last) it' := by
  cases hwork with
  | control control => exact h.control (some control)
  | cancel => exact h.control _
  | clearCancel => exact h.control _
  | reset => exact loaded_reset last it
  | check source => exact loaded_check source it
  | execute hexec => exact loaded_execute hexec

/-! ## Any amount of work -/

theorem Given.loaded (h : Given capacity policy last it) : Loaded last it := by
  induction h with
  | new => exact loaded_new
  | work _ hwork ih => exact hwork.loaded ih

theorem Given.worked (h : Given capacity policy last it) :
    ∃ limit, Worked capacity policy limit it := by
  induction h with
  | new => exact ⟨none, .new⟩
  | work _ hwork ih =>
    obtain ⟨limit, h⟩ := ih
    cases hwork with
    | control control => exact ⟨_, h.control control⟩
    | cancel => exact ⟨_, h.cancel⟩
    | clearCancel => exact ⟨_, h.clearCancel⟩
    | reset => exact ⟨_, h.reset⟩
    | check source => exact ⟨_, h.check source⟩
    | execute hexec => exact ⟨_, h.execute hexec⟩

theorem Loaded.sorted (h : Loaded last it) : it.program.offsets.Pairwise (· < ·) := by
  rcases h.source with ⟨hempty, _⟩ | ⟨source, _, hprogram, _⟩
  · rw [hempty]
    exact .nil
  · exact Program.sorted_offsets hprogram

theorem Given.inOrder (h : Given capacity policy last it) : InOrder capacity policy last it := by
  obtain ⟨limit, hworked⟩ := h.worked
  have hfits := hworked.fits
  have hloaded := h.loaded
  refine ⟨hloaded, ?_, hloaded.sorted, it.tape.pointer_lt, hfits.capacity, hfits.policy⟩
  rw [Program.length_instructions, Program.length_offsets]

/-! ## Texts that are rejected -/

theorem check_of_rejects (h : Rejects source cause) (it : Interpreter) :
    it.check source = (.error cause, it.reset, #[.reset]) := by
  rw [check, h.read_eq]

theorem execute_of_rejects (h : Rejects source cause) (mode : Mode) (traced : Bool) (fuel : Nat)
    (input : Input) (output : Output) (it : Interpreter) :
    it.execute mode traced fuel source input output =
      some ⟨.failed (.rejected cause), it.reset, input, output, #[.reset, .rejected cause]⟩ :=
  execute_of_error h.read_eq

/-- Not even those who may set the flag at any moment can make more of a text that is rejected. -/
theorem executes_of_rejects (h : Rejects source cause) {mode : Mode} {input input' : Input}
    {output output' : Output} {ending : Ending}
    (hexec : Executes mode source input output it ending it' input' output') :
    ending = .failed (.rejected cause) ∧ it' = it.reset ∧ input' = input ∧ output' = output := by
  have hread := h.read_eq
  cases hexec with
  | rejected hread' =>
    cases hread.symm.trans hread'
    exact ⟨rfl, rfl, rfl, rfl⟩
  | ran hread' _ => cases hread.symm.trans hread'

/-- After any amount of work, successful or not, an interpreter has loaded nothing or the last text
that it was given, with the table of that text. The offsets of its instructions are sorted, its
counter and its pointer are in bounds, and capacity and policy are those that it began with. A text
that is rejected, be it as a program or for its brackets, is not even begun: whatever is asked of
the interpreter, the answer is the rejection, nothing is read or written, and the interpreter is as
after a reset. -/
theorem given_inOrder (h : Given capacity policy last it) :
    InOrder capacity policy last it ∧
      ∀ source cause, Rejects source cause →
        it.check source = (.error cause, it.reset, #[.reset]) ∧
        (∀ mode traced fuel input output, it.execute mode traced fuel source input output =
          some ⟨.failed (.rejected cause), it.reset, input, output,
            #[.reset, .rejected cause]⟩) ∧
        ∀ mode input output ending it' input' output',
          Executes mode source input output it ending it' input' output' →
            ending = .failed (.rejected cause) ∧ it' = it.reset ∧ input' = input ∧
              output' = output :=
  ⟨h.inOrder, fun _ _ hrejects =>
    ⟨check_of_rejects hrejects it,
      fun mode traced fuel input output =>
        execute_of_rejects hrejects mode traced fuel input output it,
      fun _ _ _ _ _ _ _ hexec => executes_of_rejects hrejects hexec⟩⟩

/-- An evaluation overruns its tape behind a comment, somebody cancels too late, and then `+]` is
rejected for its bracket. -/
theorem given_inOrder_overrun :
    ∃ it, Given 1 .strict (some "x+>") it ∧ it.pc = 1 ∧ InOrder 1 .strict (some "x+>") it ∧
      Rejects "+]" (.unmatchedClose 2 1) ∧
      (it.check "+]").1 = .error (.unmatchedClose 2 1) ∧
      it.execute .live false 0 "+]" [.byte 7] {} =
        some ⟨.failed (.rejected (.unmatchedClose 2 1)), it.reset, [.byte 7], {},
          #[.reset, .rejected (.unmatchedClose 2 1)]⟩ := by
  have hrun : ∃ e, ((new 1 .strict).setControl {}).execute .live false 3 "x+>" [] {} = some e ∧
      e.interpreter.pc = 1 := ⟨_, rfl, rfl⟩
  obtain ⟨e, he, hpc⟩ := hrun
  have hgiven : Given 1 .strict (some "x+>") e.interpreter.cancel :=
    .work (.work (.work .new (.control {})) (.execute (executes_of_execute he))) .cancel
  obtain ⟨horder, hrejected⟩ := given_inOrder hgiven
  have hprogram : Program.ofSource "+]" = .ok ⟨#[⟨.increment, 0⟩, ⟨.loopClose, 1⟩]⟩ := rfl
  have hrejects : Rejects "+]" (.unmatchedClose 2 1) := .brackets hprogram rfl
  obtain ⟨hcheck, hexecute, _⟩ := hrejected _ _ hrejects
  exact ⟨_, hgiven, hpc, horder, hrejects, congrArg Prod.fst hcheck,
    hexecute .live false 0 [.byte 7] {}⟩

end Interpreter

end TapeMachine
