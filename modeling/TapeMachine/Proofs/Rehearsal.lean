import TapeMachine.Proofs.Evaluation
import TapeMachine.Proofs.Parallel
import TapeMachine.Proofs.Rows

/-!
# TapeMachine.Proofs.Rehearsal

An evaluation in the table mode makes the moves of a live one at the end of its input.

* `Input.Ended`        — an input at which every read finds the end.
* `Machine.bare`       — a machine without what it reads from and writes to.
* `Machine.Rehearses`  — a machine that writes a table, and the live one that it stands for.
* `lockstep_rehearses` — they go in lockstep, whatever the instruction.
* `Rehearses.run_eq`, `Interpreter.tabulate_eq` — so they come to the same with the same fuel.
* `run_table_eq`       — the whole of it, with what the table consists of.
-/

namespace TapeMachine

namespace Input

/-- Nothing is left but ends of the input. -/
def Ended (input : Input) : Prop := ∀ event ∈ input, event = .finished

theorem Ended.receive_eq {input : Input} (h : input.Ended) :
    input.receive = ⟨.ok 0, List.tail input, false⟩ := by
  cases input with
  | nil => rfl
  | cons event rest =>
    rw [h event (List.mem_cons_self ..)]
    rfl

theorem Ended.tail {input : Input} (h : input.Ended) : Ended (List.tail input) :=
  fun event hevent => h event (List.mem_of_mem_tail hevent)

end Input

namespace Machine

/-- The machine without what it reads from and writes to. -/
def bare (m : Machine) : Machine := { m with input := [], output := {} }

/-- The first machine stands where the second does. It writes a table, and the second reads at the
end of its input. -/
structure Rehearses (table live : Machine) : Prop where
  bare : live.bare = table.bare
  written : table.output.Flawless
  sent : live.output.Flawless
  ended : live.input.Ended

variable {job : Job} {program : Program} {jumps : JumpTable} {i : Instruction}
  {m m' table live : Machine} {ending : Ending}

namespace Rehearses

variable (h : Rehearses table live)

include h

theorem tape : live.tape = table.tape :=
  show live.bare.tape = table.bare.tape from congrArg Machine.tape h.bare

theorem pc : live.pc = table.pc :=
  show live.bare.pc = table.bare.pc from congrArg Machine.pc h.bare

theorem steps : live.steps = table.steps :=
  show live.bare.steps = table.bare.steps from congrArg Machine.steps h.bare

theorem control : live.control = table.control :=
  show live.bare.control = table.bare.control from congrArg Machine.control h.bare

theorem flow?_eq (program : Program) (jumps : JumpTable) (i : Instruction) :
    Job.flow? ⟨program, jumps, .live⟩ live.pc live.tape.cell i =
      Job.flow? ⟨program, jumps, .table⟩ table.pc table.tape.cell i := by
  rw [h.pc, h.tape]
  rfl

theorem noted (lines : List String) : Rehearses (table.noted lines) live :=
  ⟨h.bare, h.written.append _, h.sent, h.ended⟩

theorem conclude (flow : Flow) :
    Rehearses { table with pc := flow.counter table.pc, steps := table.steps + 1 }
      { live with pc := flow.counter live.pc, steps := live.steps + 1 } := by
  refine ⟨?_, h.written, h.sent, h.ended⟩
  simp only [Machine.bare, h.tape, h.pc, h.steps, h.control]

theorem adjust (i : Instruction) :
    ∃ m m' trouble, table.adjust i = (m, trouble) ∧ live.adjust i = (m', trouble) ∧
      Rehearses m m' := by
  rw [adjust_eq_moved, adjust_eq_moved, h.tape]
  cases i.onTape table.tape with
  | error cause => exact ⟨table, live, some (.overrun cause), rfl, rfl, h⟩
  | ok t =>
    refine ⟨{ table with tape := t }, { live with tape := t }, none, rfl, rfl, ?_,
      h.written, h.sent, h.ended⟩
    simp only [Machine.bare, h.pc, h.steps, h.control]

theorem perform (i : Instruction) :
    ∃ m m' trouble, table.rehearse i = (m, trouble) ∧ live.perform i = (m', trouble) ∧
      Rehearses m m' := by
  cases i with
  | read =>
    refine ⟨{ table with tape := table.tape.store 0 },
      { live with tape := table.tape.store 0, input := List.tail live.input }, none, rfl, ?_, ?_,
      h.written, h.sent, h.ended.tail⟩
    · simp only [Machine.perform, receive, h.ended.receive_eq, cancelIf_false, h.tape]
    · simp only [Machine.bare, h.pc, h.steps, h.control]
  | write =>
    refine ⟨table, { live with output := live.output.push live.tape.cell }, none, rfl, ?_,
      h.bare, h.written, h.sent.push _, h.ended⟩
    rw [perform_write, h.sent.sendByte_eq, (h.sent.push _).cancels, cancelIf_false]
    rfl
  | _ =>
    simp only [rehearse, Machine.perform]
    exact h.adjust _

end Rehearses

/-- Every instruction does the same in both modes. -/
theorem lockstep_rehearses (program : Program) (jumps : JumpTable) :
    Lockstep ⟨program, jumps, .table⟩ ⟨program, jumps, .live⟩ (fun _ => True) Rehearses where
  pending {m m'} h := by
    simp only [pending, h.pc, h.steps, h.control]
  next {m m' m₁ i} h hs := by
    obtain ⟨flow, m₂, hf, hr, rfl⟩ := step_table_next rfl h.written hs
    obtain ⟨_, m₂', _, hr', hp, h₂⟩ := h.perform i
    cases hr.symm.trans hr'
    -- The row is written besides, and shows in nothing but the output.
    refine ⟨_, ?_, (h₂.noted [m.row i flow]).conclude flow⟩
    simp only [step, h.flow?_eq, hf, hp, conclude]
  stop {m m' m₁ i ending} h hs _ := by
    -- The failure names the counter, which a step that fails has not moved.
    have hsite := (step_stop hs).1.pc
    rcases step_table_stop rfl h.written hs with ⟨rfl, hf, rfl⟩ | ⟨flow, trouble, hf, hr, rfl⟩
    · refine ⟨m', ?_, h⟩
      simp only [step, h.flow?_eq, hf]
    · obtain ⟨_, m₂', _, hr', hp, h₂⟩ := h.perform i
      cases hr.symm.trans hr'
      refine ⟨m₂', ?_, h₂⟩
      simp only [step, h.flow?_eq, hf, hp, conclude, h₂.pc, hsite]
      rfl

/-- With the same fuel both come to the same, or both run out of it. -/
theorem Rehearses.run_eq (h : Rehearses table live) (program : Program) (jumps : JumpTable)
    (traced traced' : Bool) (fuel : Nat) :
    (table.run ⟨program, jumps, .table⟩ traced fuel).map (fun f => (f.ending, f.machine.bare)) =
      (live.run ⟨program, jumps, .live⟩ traced' fuel).map
        (fun f => (f.ending, f.machine.bare)) := by
  have hrun := (lockstep_rehearses program jumps).parallel.run (begin_table rfl h.written) rfl
    (h.noted _) traced traced' fuel
  revert hrun
  generalize table.run ⟨program, jumps, .table⟩ traced fuel = r
  generalize live.run ⟨program, jumps, .live⟩ traced' fuel = r'
  intro hrun
  cases hrun with
  | none => rfl
  | some hf => simp only [Option.map_some, hf.ending, hf.machine.bare]

end Machine

namespace Interpreter

theorem tabulate_eq {out sink : Output} (hout : out.Flawless) (hsink : sink.Flawless)
    (it : Interpreter) (source : String) (traced traced' : Bool) (fuel : Nat) :
    (it.tabulate traced fuel source out).map (fun e => (e.ending, e.interpreter)) =
      (it.evaluate traced' fuel source [] sink).map (fun e => (e.ending, e.interpreter)) := by
  rw [tabulate, evaluate]
  cases hread : read source with
  | error cause =>
    rw [execute_of_error hread, execute_of_error hread]
    rfl
  | ok loaded =>
    obtain ⟨program, jumps⟩ := loaded
    have h : Machine.Rehearses (it.reset.machine [] out) (it.reset.machine [] sink) :=
      ⟨rfl, hout, hsink, nofun⟩
    have hrun := congrArg (Option.map fun (ending, m) => (ending, ofMachine program jumps m))
      (h.run_eq program jumps traced traced' fuel)
    rw [execute_of_ok hread, execute_of_ok hread, Option.map_map, Option.map_map]
    rwa [Option.map_map, Option.map_map] at hrun

end Interpreter

namespace Machine

variable {table live : Machine}

/-- The evaluation that writes a table and the live one that reads at the end of its input come to
the same with the same fuel, or both run out of it. They end in the same way, with the same tape,
counter, count and control. The first reads nothing, and writes two lines and one for every step
that counts. In particular an interpreter tabulates every text as it evaluates it without input. -/
theorem run_table_eq (h : Rehearses table live) (program : Program) (jumps : JumpTable)
    (traced traced' : Bool) (fuel : Nat) :
    (table.run ⟨program, jumps, .table⟩ traced fuel).map (fun f => (f.ending, f.machine.bare)) =
        (live.run ⟨program, jumps, .live⟩ traced' fuel).map
          (fun f => (f.ending, f.machine.bare)) ∧
      (∀ f, table.run ⟨program, jumps, .table⟩ traced fuel = some f →
        f.machine.input = table.input ∧
          ∃ n, f.machine.steps = table.steps + n ∧
            let lines := Table.header ++
              (table.noted Table.header).rows ⟨program, jumps, .table⟩ n
            lines.length = 2 + n ∧ (∀ line ∈ lines, Table.IsLine line) ∧
              f.machine.output = table.output.append (Table.bytes lines)) ∧
      ∀ (it : Interpreter) (source : String) (out sink : Output), out.Flawless → sink.Flawless →
        (it.tabulate traced fuel source out).map (fun e => (e.ending, e.interpreter)) =
          (it.evaluate traced' fuel source [] sink).map (fun e => (e.ending, e.interpreter)) :=
  ⟨h.run_eq program jumps traced traced' fuel, fun _ hf => table_of_run rfl h.written hf,
    fun it source _ _ hout hsink =>
      Interpreter.tabulate_eq hout hsink it source traced traced' fuel⟩

/-- `,+>` on a tape of one cell: two rows, and none for the step that fails. The table leaves alone
the byte that it could read. -/
theorem run_table_eq_overrun :
    let program : Program := ⟨#[⟨.read, 0⟩, ⟨.increment, 1⟩, ⟨.moveRight, 2⟩]⟩
    let jumps : JumpTable := ⟨#[none, none, none], 0⟩
    let table : Machine := ⟨(Tape.new 1 .strict).store 8, 0, 0, [.byte 7], {}, none⟩
    let live : Machine := ⟨(Tape.new 1 .strict).store 8, 0, 0, [.finished], {}, none⟩
    Rehearses table live ∧ ({} : Output).Flawless ∧
      ∃ f, table.run ⟨program, jumps, .table⟩ false 4 = some f ∧ f.machine.steps = 2 ∧
        f.ending = .failed (.overrun ⟨2, 2⟩ (.pastLast 0)) ∧
        (live.run ⟨program, jumps, .live⟩ false 4).map (fun f => (f.ending, f.machine.bare)) =
          some (f.ending, f.machine.bare) ∧
        f.machine.input = [.byte 7] ∧
        ∃ lines, lines.length = 4 ∧ f.machine.output = table.output.append (Table.bytes lines) ∧
          ((Interpreter.new 1 .strict).tabulate false 4 ",+>" {}).map
              (fun e => (e.ending, e.interpreter)) =
            ((Interpreter.new 1 .strict).evaluate false 4 ",+>" [] {}).map
              (fun e => (e.ending, e.interpreter)) := by
  intro program jumps table live
  let last : Machine := ⟨(Tape.new 1 .strict).store 1, 2, 2, [], {}, none⟩
  have hflawless : ({} : Output).Flawless := ⟨rfl, rfl, rfl, rfl⟩
  have h : Rehearses table live :=
    ⟨rfl, hflawless, hflawless, List.forall_mem_singleton.2 rfl⟩
  obtain ⟨hrun, htable, htext⟩ := run_table_eq h program jumps false false 4
  have hlive : live.run ⟨program, jumps, .live⟩ false 4 =
      some ⟨.failed (.overrun ⟨2, 2⟩ (.pastLast 0)), last, #[]⟩ := by cbv
  rw [hlive] at hrun
  obtain ⟨f, hf, hmap⟩ := Option.map_eq_some_iff.1 hrun
  have hending : f.ending = .failed (.overrun ⟨2, 2⟩ (.pastLast 0)) := congrArg Prod.fst hmap
  have hsteps : f.machine.steps = 2 := congrArg (fun r => Machine.steps r.2) hmap
  obtain ⟨hinput, n, hn, hlength, _, houtput⟩ := htable f hf
  have hzero : table.steps = 0 := rfl
  obtain rfl : n = 2 := by omega
  refine ⟨h, hflawless, f, hf, hsteps, hending, ?_, hinput, _, hlength, houtput,
    htext (Interpreter.new 1 .strict) ",+>" {} {} hflawless hflawless⟩
  rw [hlive, hmap]
  rfl

end Machine

end TapeMachine
