import TapeMachine.Proofs.Lockstep
import TapeMachine.Proofs.Trouble

/-!
# TapeMachine.Proofs.Rows

What an evaluation in the table mode writes, when its output never fails.

* `Table.IsLine`    — a text without line end; the header and every row are such texts.
* `Output.Flawless` — an output that takes everything and prompts no cancellation.
* `Machine.noted`   — a machine that has written some lines.
* `step_table_next`, `step_table_stop` — all that a step can come to in the table mode.
* `Machine.rows`    — the rows of the first steps. `output_of_after` says that they are all that is
  written, one for every step, by induction on the number of steps.
* `table_of_run`    — the table of a whole evaluation.
-/

namespace TapeMachine

namespace Table

/-- The text does not go on behind the end of a line. -/
def IsLine (text : String) : Prop := '\n' ∉ text.toList

/-- Lines as they are written, each with its end. -/
def bytes (lines : List String) : List UInt8 :=
  lines.flatMap fun line => line.toUTF8.toList ++ [10]

instance (text : String) : Decidable (IsLine text) :=
  inferInstanceAs (Decidable ('\n' ∉ text.toList))

@[simp] theorem isLine_append (a b : String) : IsLine (a ++ b) ↔ IsLine a ∧ IsLine b := by
  simp [IsLine]

@[simp] theorem isLine_repr (n : Nat) : IsLine n.repr := by
  intro h
  rw [Nat.toList_repr] at h
  have hdigit := Nat.isDigit_of_mem_toDigits (by decide) (by decide) h
  revert hdigit
  decide

@[simp] theorem isLine_toString (b : UInt8) : IsLine (toString b) := isLine_repr b.toNat

@[simp] theorem isLine_column (width : Nat) (text : String) :
    IsLine (column width text) ↔ IsLine text := by
  have hpadding : IsLine (String.ofList (List.replicate (width - text.length) ' ')) := by
    simp [IsLine]
  simp [column, hpadding]

/-- What is left of an action besides numbers are fixed texts. -/
theorem isLine_action (before : View) (flow : Flow) (after : Tape) :
    IsLine (action before flow after) := by
  obtain ⟨ip, pointer, cell, i⟩ := before
  unfold action
  cases flow with
  | past closing =>
    simp only [isLine_append, Nat.toString_eq_repr, isLine_repr]
    decide +kernel
  | back opening =>
    simp only [isLine_append, Nat.toString_eq_repr, isLine_repr]
    decide +kernel
  | onward =>
    cases i <;> simp only [isLine_append, Nat.toString_eq_repr, isLine_repr, isLine_toString] <;>
      decide +kernel

theorem isLine_row (step : Nat) (before : View) {action : String} (h : IsLine action) :
    IsLine (row step before action) := by
  obtain ⟨ip, pointer, cell, i⟩ := before
  simp only [row, isLine_append, isLine_column, Nat.toString_eq_repr, isLine_repr,
    isLine_toString, h]
  cases i <;> decide +kernel

theorem isLine_of_mem_header {line : String} (h : line ∈ header) : IsLine line := by
  revert line
  decide +kernel

theorem bytes_append (lines lines' : List String) :
    bytes (lines ++ lines') = bytes lines ++ bytes lines' := by
  simp [bytes]

end Table

namespace Output

/-- An output that takes everything, passes it on, and prompts no cancellation. -/
structure Flawless (o : Output) : Prop where
  limit : o.limit = none
  lapses : o.lapses = []
  failingFlush : o.failingFlush = none
  cancelAt : o.cancelAt = none

theorem append_nil (o : Output) : o.append [] = o := by
  simp [append]

theorem append_append (bytes bytes' : List UInt8) (o : Output) :
    (o.append bytes).append bytes' = o.append (bytes ++ bytes') := by
  have htaken : (o.taken.appendList bytes).appendList bytes' =
      o.taken.appendList (bytes ++ bytes') := Array.ext' (by simp)
  simp only [append, htaken]

namespace Flawless

variable {o : Output}

theorem append (h : o.Flawless) (bytes : List UInt8) : (o.append bytes).Flawless :=
  ⟨h.limit, h.lapses, h.failingFlush, h.cancelAt⟩

theorem push (h : o.Flawless) (byte : UInt8) : (o.push byte).Flawless :=
  ⟨h.limit, h.lapses, h.failingFlush, h.cancelAt⟩

theorem cancels (h : o.Flawless) : o.cancels = false := by
  rw [Output.cancels, h.cancelAt]

theorem brink (h : o.Flawless) : o.brink = none := by
  simp [Output.brink, h.limit, h.lapses]

theorem write_eq (h : o.Flawless) (bytes : List UInt8) :
    o.write bytes = (o.append bytes, none) := by
  rw [write, h.brink]

theorem sendByte_eq (h : o.Flawless) (byte : UInt8) : o.sendByte byte = (o.push byte, none) := by
  rw [Output.sendByte_eq, accepts, h.brink, flushFails, h.failingFlush]
  rfl

end Flawless

end Output

namespace Machine

/-- The machine after it has written some lines. -/
def noted (lines : List String) (m : Machine) : Machine :=
  { m with output := m.output.append (Table.bytes lines) }

/-- The row that the step of an instruction writes. -/
def row (i : Instruction) (m : Machine) (flow : Flow) : String :=
  Table.row m.steps (m.view i) (Table.action (m.view i) flow (m.rehearse i).1.tape)

/-- The row that the next step writes, if there is one to be made. -/
def rowDue (job : Job) (m : Machine) : List String :=
  match m.pending job with
  | .error _ => []
  | .ok i => ((job.flow? m.pc m.tape.cell i).map (m.row i)).toList

/-- The rows that the first `n` steps write, in order. -/
def rows (job : Job) : Nat → Machine → List String
  | 0, _ => []
  | n + 1, m =>
    match m.advance job with
    | .next m' => m.rowDue job ++ rows job n m'
    | .stop _ _ => []

variable {job : Job} {i : Instruction} {m m' : Machine} {ending : Ending} {n : Nat}

theorem noted_noted (lines lines' : List String) (m : Machine) :
    (m.noted lines).noted lines' = m.noted (lines ++ lines') := by
  simp only [noted, Output.append_append, Table.bytes_append]

theorem sendBy_writeLine (h : m.output.Flawless) (line : String) :
    m.sendBy (Output.writeLine line) = (m.noted [line], none) := by
  obtain ⟨tape, pc, steps, input, output, control⟩ := m
  have hline : output.writeLine line = (output.append (Table.bytes [line]), none) := by
    rw [Output.writeLine, h.write_eq]
    simp [Table.bytes]
  simp only [sendBy, hline, (h.append _).cancels, cancelIf_false]
  rfl

theorem sendLines_eq (h : m.output.Flawless) (lines : List String) :
    m.sendLines lines = (m.noted lines, none) := by
  induction lines generalizing m with
  | nil =>
    have hnone : m.noted [] = m := by
      rw [noted, show Table.bytes [] = [] from rfl, Output.append_nil]
    rw [sendLines, hnone]
  | cons line rest ih =>
    simp only [sendLines, sendBy_writeLine h]
    rw [ih (h.append _), noted_noted]
    rfl

theorem begin_table (hmode : job.mode = .table) (h : m.output.Flawless) :
    m.begin job = (m.noted Table.header, none) := by
  simp only [begin, hmode, sendLines_eq h]

/-! ## Steps -/

theorem rehearse_input (i : Instruction) (m : Machine) : (m.rehearse i).1.input = m.input := by
  cases i with
  | read => rfl
  | write => rfl
  | _ =>
    simp only [rehearse, adjust_eq_moved]
    cases Instruction.onTape _ m.tape <;> rfl

theorem rehearse_output (i : Instruction) (m : Machine) : (m.rehearse i).1.output = m.output := by
  cases i with
  | read => rfl
  | write => rfl
  | _ =>
    simp only [rehearse, adjust_eq_moved]
    cases Instruction.onTape _ m.tape <;> rfl

section

variable (hmode : job.mode = .table) (ho : m.output.Flawless)

include hmode ho

theorem step_table_eq {flow : Flow} (hf : job.flow? m.pc m.tape.cell i = some flow) :
    m.step job i =
      match m.rehearse i with
      | (m₁, none) => conclude job flow (m₁.noted [m.row i flow], none)
      | (m₁, some trouble) => conclude job flow (m₁, some trouble) := by
  have houtput := rehearse_output i m
  simp only [step, hf, hmode]
  cases hr : m.rehearse i with
  | mk m₁ trouble =>
    cases trouble with
    | some trouble => rfl
    | none =>
      rw [hr] at houtput
      have ho₁ : m₁.output.Flawless := by rwa [houtput]
      simp only [sendBy_writeLine ho₁, row, hr]

theorem step_table_next (h : m.step job i = .next m') :
    ∃ flow m₁, job.flow? m.pc m.tape.cell i = some flow ∧ m.rehearse i = (m₁, none) ∧
      m' = { m₁.noted [m.row i flow] with
        pc := flow.counter m₁.pc
        steps := m₁.steps + 1 } := by
  cases hf : job.flow? m.pc m.tape.cell i with
  | none =>
    rw [step, hf] at h
    cases h
  | some flow =>
    rw [step_table_eq hmode ho hf] at h
    split at h
    · rename_i m₁ hr
      obtain ⟨_, rfl⟩ := conclude_next h
      exact ⟨flow, m₁, rfl, hr, rfl⟩
    · cases h

/-- A step that fails writes nothing. -/
theorem step_table_stop (h : m.step job i = .stop ending m') :
    ending = .broken .unpairedBracket ∧ job.flow? m.pc m.tape.cell i = none ∧ m' = m ∨
      ∃ flow trouble, job.flow? m.pc m.tape.cell i = some flow ∧
        m.rehearse i = (m', some trouble) ∧
        ending = .failed (trouble.failure (job.site m.pc)) := by
  cases hf : job.flow? m.pc m.tape.cell i with
  | none =>
    rw [step, hf] at h
    cases h
    exact .inl ⟨rfl, rfl, rfl⟩
  | some flow =>
    have hpc := (step_stop h).1.pc
    rw [step_table_eq hmode ho hf] at h
    split at h
    · cases h
    · rename_i m₁ trouble hr
      obtain ⟨rfl, trouble', htrouble, rfl⟩ := conclude_stop h
      cases htrouble
      exact .inr ⟨flow, trouble, rfl, hr, by rw [← hpc]⟩

/-! ## What is written -/

theorem advance_table_next (h : m.advance job = .next m') :
    ∃ line, m.rowDue job = [line] ∧ Table.IsLine line ∧ m'.input = m.input ∧
      m'.output = m.output.append (Table.bytes [line]) := by
  obtain ⟨i, hi, hstep⟩ := advance_next h
  obtain ⟨flow, m₁, hf, hr, rfl⟩ := step_table_next hmode ho hstep
  have hinput := rehearse_input i m
  have houtput := rehearse_output i m
  rw [hr] at hinput houtput
  refine ⟨m.row i flow, ?_, ?_, hinput, congrArg (Output.append _) houtput⟩
  · simp [rowDue, hi, hf]
  · exact Table.isLine_row _ _ (Table.isLine_action _ _ _)

theorem advance_table_stop (h : m.advance job = .stop ending m') :
    m'.input = m.input ∧ m'.output = m.output := by
  rcases advance_stop h with ⟨_, rfl⟩ | ⟨i, _, hstep⟩
  · exact ⟨rfl, rfl⟩
  · rcases step_table_stop hmode ho hstep with ⟨_, _, rfl⟩ | ⟨_, _, _, hr, _⟩
    · exact ⟨rfl, rfl⟩
    · have hinput := rehearse_input i m
      have houtput := rehearse_output i m
      rw [hr] at hinput houtput
      exact ⟨hinput, houtput⟩

end

/-- Steps that succeed write one row each, and nothing else. -/
theorem output_of_after (hmode : job.mode = .table) (ho : m.output.Flawless)
    (h : m.after job n = some m') :
    (m.rows job n).length = n ∧ (∀ line ∈ m.rows job n, Table.IsLine line) ∧
      m'.input = m.input ∧ m'.output = m.output.append (Table.bytes (m.rows job n)) := by
  induction n generalizing m with
  | zero =>
    cases h
    exact ⟨rfl, nofun, rfl, (Output.append_nil _).symm⟩
  | succ n ih =>
    obtain ⟨m₁, hs, hrest⟩ := exists_of_after_succ h
    obtain ⟨line, hdue, hline, hinput, houtput⟩ := advance_table_next hmode ho hs
    have ho₁ : m₁.output.Flawless := by
      rw [houtput]
      exact ho.append _
    obtain ⟨hlength, hlines, hinput', houtput'⟩ := ih ho₁ hrest
    have hrows : m.rows job (n + 1) = line :: m₁.rows job n := by
      rw [rows, hs, hdue]
      rfl
    rw [hrows]
    refine ⟨congrArg (· + 1) hlength, List.forall_mem_cons.2 ⟨hline, hlines⟩,
      hinput'.trans hinput, ?_⟩
    rw [houtput', houtput, Output.append_append, ← Table.bytes_append]
    rfl

/-- The table consists of the lines at its head and of the rows of the steps that count. Nothing
else is written, and nothing is read. -/
theorem table_of_run {traced : Bool} {fuel : Nat} {f : Finish} (hmode : job.mode = .table)
    (ho : m.output.Flawless) (h : m.run job traced fuel = some f) :
    f.machine.input = m.input ∧
      ∃ n, f.machine.steps = m.steps + n ∧
        let lines := Table.header ++ (m.noted Table.header).rows job n
        lines.length = 2 + n ∧ (∀ line ∈ lines, Table.IsLine line) ∧
          f.machine.output = m.output.append (Table.bytes lines) := by
  have ho' : (m.noted Table.header).output.Flawless := ho.append _
  rw [run_of_begin (begin_table hmode ho)] at h
  obtain ⟨n, _, he⟩ := endsAfter_of_proceed h
  have hsteps := he.steps
  obtain ⟨last, hlast, hstop⟩ := he
  obtain ⟨hlength, hlines, hinput, houtput⟩ := output_of_after hmode ho' hlast
  have hflawless : last.output.Flawless := by
    rw [houtput]
    exact ho'.append _
  obtain ⟨hinput', houtput'⟩ := advance_table_stop hmode hflawless hstop
  refine ⟨hinput'.trans hinput, n, hsteps, ?_, ?_, ?_⟩
  · rw [List.length_append, hlength]
    rfl
  · intro line hline
    exact (List.mem_append.1 hline).elim Table.isLine_of_mem_header (hlines line)
  · rw [houtput', houtput, Table.bytes_append, ← Output.append_append]
    rfl

end Machine

end TapeMachine
