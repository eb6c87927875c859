import TapeMachine.Proofs.Bounds
import TapeMachine.Proofs.Rows

/-!
# TapeMachine.Proofs.Trace

The table that an evaluation writes is a faithful account of its steps.

* `Table.Shows`        — a row with the number of a step and with what could be seen before it, in
  columns.
* `Table.Tells`        — a text that is true of a step. It leaves no choice for what the step makes
  of the tape and the counter, so that the steps can be made again from the table.
* `Machine.Tabulates`  — lines that are the table of a number of steps.
* `tells_of_step`      — one case for each instruction and each way it can send the counter.
* `tabulates_of_after` — the table of any number of steps.
* `run_tabulates`      — the table of a whole evaluation, and of one that has not come to its end.
-/

namespace TapeMachine

namespace Table

/-- The text with blanks behind it, if there is room for them. -/
structure Justified (width : Nat) (text padded : String) : Prop where
  blanks : ∃ n, padded.toList = text.toList ++ List.replicate n ' '
  length : padded.length = max width text.length

/-- The line has the number of a step, what could be seen before it, and a text about it. -/
inductive Shows (number : Nat) (before : View) (action : String) : String → Prop where
  | intro {step ip pointer cell : String} (hstep : Justified 4 (toString number) step)
      (hip : Justified 3 (toString before.ip) ip)
      (hpointer : Justified 3 (toString before.pointer) pointer)
      (hcell : Justified 4 (toString before.cell) cell) :
      Shows number before action
        (step ++ " | " ++ ip ++ " | " ++ pointer ++ " | " ++ cell ++ " |  " ++
          before.instruction.symbol.toString ++ "    | " ++ action)

/-- The text is true of a step, given the machine before it and the machine after it. -/
inductive Tells (is : List Instruction) (before after : Machine) : Instruction → String → Prop where
  | increment (tape : after.tape = before.tape.increment) (counter : after.pc = before.pc + 1) :
      Tells is before after .increment
        s!"Increment cell[{after.tape.pointer}] from {before.tape.cell} to {after.tape.cell}"
  | decrement (tape : after.tape = before.tape.decrement) (counter : after.pc = before.pc + 1) :
      Tells is before after .decrement
        s!"Decrement cell[{after.tape.pointer}] from {before.tape.cell} to {after.tape.cell}"
  | moveRight (tape : before.tape.forward = .ok after.tape) (counter : after.pc = before.pc + 1) :
      Tells is before after .moveRight s!"Moved pointer head to index {after.tape.pointer}"
  | moveLeft (tape : before.tape.backward = .ok after.tape) (counter : after.pc = before.pc + 1) :
      Tells is before after .moveLeft s!"Moved pointer head to index {after.tape.pointer}"
  | read (tape : after.tape = before.tape.store 0) (cell : after.tape.cell = 0)
      (counter : after.pc = before.pc + 1) :
      Tells is before after .read "Read byte -> simulated EOF (set cell to 0)"
  | write (tape : after.tape = before.tape) (counter : after.pc = before.pc + 1) :
      Tells is before after .write s!"Output byte {after.tape.cell} (suppressed in debug)"
  | enter (tape : after.tape = before.tape) (cell : after.tape.cell ≠ 0)
      (counter : after.pc = before.pc + 1) :
      Tells is before after .loopOpen "Enter loop (cell != 0)"
  | skip {closing : Nat} (tape : after.tape = before.tape) (cell : after.tape.cell = 0)
      (paired : Paired is before.pc closing) (counter : after.pc = closing + 1) :
      Tells is before after .loopOpen s!"Cell is 0; jump past matching ']' at IP {closing}"
  | leave (tape : after.tape = before.tape) (cell : after.tape.cell = 0)
      (counter : after.pc = before.pc + 1) :
      Tells is before after .loopClose "Exit loop (cell is 0)"
  | again {opening : Nat} (tape : after.tape = before.tape) (cell : after.tape.cell ≠ 0)
      (paired : Paired is opening before.pc) (counter : after.pc = opening) :
      Tells is before after .loopClose s!"Cell != 0; jump back to matching '[' at IP {opening}"

theorem justified_column (width : Nat) (text : String) :
    Justified width text (column width text) where
  blanks := ⟨width - text.length, by simp [column]⟩
  length := by
    simp [column]
    omega

theorem Justified.eq_column {width : Nat} {text padded : String} (h : Justified width text padded) :
    padded = column width text := by
  obtain ⟨n, hblanks⟩ := h.blanks
  have hlength := h.length
  rw [← String.length_toList, hblanks, List.length_append, List.length_replicate,
    String.length_toList] at hlength
  obtain rfl : n = width - text.length := by omega
  rw [← String.toList_inj, hblanks, column, String.toList_append, String.toList_ofList]

theorem shows_iff {number : Nat} {before : View} {action line : String} :
    Shows number before action line ↔ line = row number before action := by
  constructor
  · rintro ⟨hstep, hip, hpointer, hcell⟩
    rw [hstep.eq_column, hip.eq_column, hpointer.eq_column, hcell.eq_column, row]
  · rintro rfl
    exact .intro (justified_column 4 _) (justified_column 3 _) (justified_column 3 _)
      (justified_column 4 _)

end Table

namespace Machine

/-- The lines are the table of the first `n` steps: two lines at its head, and for every step a row
that shows the machine before the step and tells what the step did. -/
structure Tabulates (job : Job) (m : Machine) (n : Nat) (lines : List String) : Prop where
  length : lines.length = 2 + n
  isLine : ∀ line ∈ lines, Table.IsLine line
  head : lines.take 2 = Table.header
  row : ∀ k < n, ∃ before after i action line,
    m.after job k = some before ∧ before.pending job = .ok i ∧
      m.after job (k + 1) = some after ∧ lines[2 + k]? = some line ∧
      Table.Shows (m.steps + k) ⟨before.pc, before.tape.pointer, before.tape.cell, i⟩ action line ∧
      Table.Tells job.program.instructions before after i action

variable {job : Job} {i : Instruction} {m m' m₁ : Machine} {flow : Flow} {n k : Nat}

/-! ## Single steps -/

theorem paired_of_loopOpen (h : JumpTable.ofProgram job.program = .ok job.jumps) {ip closing : Nat}
    (hi : job.program.instruction? ip = some .loopOpen)
    (hf : job.jumps.target? ip = some closing) : Paired job.program.instructions ip closing := by
  rw [Program.instruction?_eq_getElem?] at hi
  rcases (JumpTable.ofProgram_target?_iff h).1 hf with hp | hp
  · exact hp
  · cases hi.symm.trans hp.closes

theorem paired_of_loopClose (h : JumpTable.ofProgram job.program = .ok job.jumps) {ip opening : Nat}
    (hi : job.program.instruction? ip = some .loopClose)
    (hf : job.jumps.target? ip = some opening) : Paired job.program.instructions opening ip := by
  rw [Program.instruction?_eq_getElem?] at hi
  rcases (JumpTable.ofProgram_target?_iff h).1 hf with hp | hp
  · cases hi.symm.trans hp.opens
  · exact hp

theorem moved_eq_none {r : Except Overrun Tape} (h : m.moved r = (m₁, none)) : r = .ok m₁.tape := by
  cases r with
  | ok t =>
    cases h
    rfl
  | error cause => cases h

/-- The action of a row is told of the machine before the step and of every machine that has the
tape and the counter after it. -/
theorem tells_of_rehearse (h : JumpTable.ofProgram job.program = .ok job.jumps)
    (hi : job.program.instruction? m.pc = some i)
    (hf : job.flow? m.pc m.tape.cell i = some flow) (hr : m.rehearse i = (m₁, none))
    (htape : m'.tape = m₁.tape) (hpc : m'.pc = flow.counter m.pc) :
    Table.Tells job.program.instructions m m' i (Table.action (m.view i) flow m'.tape) := by
  cases i with
  | increment =>
    cases hf
    cases hr
    have htells : Table.Tells job.program.instructions m m' .increment _ := .increment htape hpc
    rw [htape] at htells ⊢
    exact htells
  | decrement =>
    cases hf
    cases hr
    have htells : Table.Tells job.program.instructions m m' .decrement _ := .decrement htape hpc
    rw [htape] at htells ⊢
    exact htells
  | moveRight =>
    cases hf
    exact .moveRight (htape ▸ moved_eq_none hr) hpc
  | moveLeft =>
    cases hf
    exact .moveLeft (htape ▸ moved_eq_none hr) hpc
  | read =>
    cases hf
    cases hr
    exact .read htape (by rw [htape, Tape.cell_store]) hpc
  | write =>
    cases hf
    cases hr
    have htells : Table.Tells job.program.instructions m m' .write _ := .write htape hpc
    rw [htape] at htells ⊢
    exact htells
  | loopOpen =>
    cases hr
    rw [Job.flow?] at hf
    split at hf
    · rename_i hcell
      obtain ⟨closing, htarget, rfl⟩ := Option.map_eq_some_iff.1 hf
      exact .skip htape (htape ▸ hcell) (paired_of_loopOpen h hi htarget) hpc
    · rename_i hcell
      cases hf
      exact .enter htape (htape ▸ hcell) hpc
  | loopClose =>
    cases hr
    rw [Job.flow?] at hf
    split at hf
    · rename_i hcell
      cases hf
      exact .leave htape (htape ▸ hcell) hpc
    · rename_i hcell
      obtain ⟨opening, htarget, rfl⟩ := Option.map_eq_some_iff.1 hf
      exact .again htape (htape ▸ hcell) (paired_of_loopClose h hi htarget) hpc

theorem row_of_step (h : JumpTable.ofProgram job.program = .ok job.jumps)
    (hmode : job.mode = .table) (ho : m.output.Flawless) (hi : m.pending job = .ok i)
    (hs : m.step job i = .next m') :
    ∃ action line, m.rowDue job = [line] ∧
      Table.Shows m.steps ⟨m.pc, m.tape.pointer, m.tape.cell, i⟩ action line ∧
      Table.Tells job.program.instructions m m' i action := by
  obtain ⟨flow, m₁, hf, hr, rfl⟩ := step_table_next hmode ho hs
  have hpc : m₁.pc = m.pc := by
    have hstill := (still_rehearse i m).pc
    rwa [hr] at hstill
  refine ⟨_, m.row i flow, by simp [rowDue, hi, hf], Table.shows_iff.2 rfl, ?_⟩
  rw [hr]
  exact tells_of_rehearse h (pending_eq_ok_iff.1 hi).1 hf hr rfl (congrArg flow.counter hpc)

/-! ## Many steps -/

theorem row_of_after (h : JumpTable.ofProgram job.program = .ok job.jumps)
    (hmode : job.mode = .table) (ho : m.output.Flawless) (hn : m.after job n = some m')
    (hk : k < n) :
    ∃ before after i action line, m.after job k = some before ∧ before.pending job = .ok i ∧
      m.after job (k + 1) = some after ∧ (m.rows job n)[k]? = some line ∧
      Table.Shows (m.steps + k) ⟨before.pc, before.tape.pointer, before.tape.cell, i⟩ action line ∧
      Table.Tells job.program.instructions before after i action := by
  induction k generalizing m n with
  | zero =>
    obtain ⟨n, rfl⟩ := Nat.exists_eq_succ_of_ne_zero (Nat.ne_of_gt hk)
    obtain ⟨after, hs, _⟩ := exists_of_after_succ hn
    obtain ⟨i, hi, hstep⟩ := advance_next hs
    obtain ⟨action, line, hdue, hshows, htells⟩ := row_of_step h hmode ho hi hstep
    refine ⟨m, after, i, action, line, rfl, hi, after_one hs, ?_, hshows, htells⟩
    rw [rows, hs, hdue]
    rfl
  | succ k ih =>
    obtain ⟨n, rfl⟩ := Nat.exists_eq_succ_of_ne_zero (Nat.ne_of_gt (Nat.zero_lt_of_lt hk))
    obtain ⟨m₁, hs, hrest⟩ := exists_of_after_succ hn
    obtain ⟨line₁, hdue, _, _, houtput⟩ := advance_table_next hmode ho hs
    have ho₁ : m₁.output.Flawless := by
      rw [houtput]
      exact ho.append _
    obtain ⟨before, after, i, action, line, hbefore, hi, hafter, hline, hshows, htells⟩ :=
      ih ho₁ hrest (Nat.lt_of_succ_lt_succ hk)
    have hnumber : m₁.steps + k = m.steps + (k + 1) := by
      have hone := steps_of_next hs
      omega
    rw [hnumber] at hshows
    refine ⟨before, after, i, action, line, (after_succ hs).trans hbefore, hi,
      (after_succ hs).trans hafter, ?_, hshows, htells⟩
    rw [rows, hs, hdue]
    exact hline

theorem tabulates_of_after (h : JumpTable.ofProgram job.program = .ok job.jumps)
    (hmode : job.mode = .table) (ho : m.output.Flawless) (hn : m.after job n = some m') :
    Tabulates job m n (Table.header ++ m.rows job n) := by
  obtain ⟨hlength, hlines, _, _⟩ := output_of_after hmode ho hn
  refine ⟨?_, fun line hline => ?_, rfl, fun k hk => ?_⟩
  · rw [List.length_append, hlength]
    rfl
  · exact (List.mem_append.1 hline).elim Table.isLine_of_mem_header (hlines line)
  · obtain ⟨before, after, i, action, line, hbefore, hi, hafter, hline, hshows, htells⟩ :=
      row_of_after h hmode ho hn hk
    have hat : (Table.header ++ m.rows job n)[2 + k]? = some line := by
      rw [← hline, Nat.add_comm]
      rfl
    exact ⟨before, after, i, action, line, hbefore, hi, hafter, hat, hshows, htells⟩

/-- After any number of steps the output has taken their table and nothing else, and so it has when
the evaluation is at its end. In the table there is a row for every step, with the number of the
step, what could be seen before it, and what is true after it. -/
theorem run_tabulates {p : Program} {jumps : JumpTable} (h : JumpTable.ofProgram p = .ok jumps)
    {m : Machine} (ho : m.output.Flawless) :
    let job : Job := ⟨p, jumps, .table⟩
    let start := (m.begin job).1
    start.steps = m.steps ∧ start.tape = m.tape ∧ start.pc = m.pc ∧
      (∀ n m', start.after job n = some m' → ∃ lines, Tabulates job start n lines ∧
        m'.output = m.output.append (Table.bytes lines)) ∧
      ∀ traced fuel f, m.run job traced fuel = some f → ∃ n lines,
        f.machine.steps = m.steps + n ∧ Tabulates job start n lines ∧
          f.machine.output = m.output.append (Table.bytes lines) := by
  intro job start
  have hstart : start = m.noted Table.header := by
    rw [show start = (m.begin job).1 from rfl, begin_table rfl ho]
  have ho' : start.output.Flawless := by
    rw [hstart]
    exact ho.append _
  have hafter : ∀ n m', start.after job n = some m' → ∃ lines, Tabulates job start n lines ∧
      m'.output = m.output.append (Table.bytes lines) := by
    intro n m' hn
    obtain ⟨_, _, _, houtput⟩ := output_of_after rfl ho' hn
    refine ⟨_, tabulates_of_after h rfl ho' hn, ?_⟩
    rw [houtput, Table.bytes_append, ← Output.append_append, hstart]
    rfl
  refine ⟨?_, ?_, ?_, hafter, fun traced fuel f hrun => ?_⟩
  · rw [hstart]
    rfl
  · rw [hstart]
    rfl
  · rw [hstart]
    rfl
  · rw [run_of_begin (begin_table rfl ho), ← hstart] at hrun
    obtain ⟨n, _, he⟩ := endsAfter_of_proceed hrun
    have hsteps := he.steps
    obtain ⟨last, hlast, hstop⟩ := he
    obtain ⟨lines, hlines, houtput⟩ := hafter n last hlast
    have hflawless : last.output.Flawless := by
      rw [houtput]
      exact ho.append _
    refine ⟨n, lines, ?_, hlines, ?_⟩
    · rw [hsteps, hstart]
      rfl
    · rw [(advance_table_stop rfl hflawless hstop).2, houtput]

/-- `-[]` begins by going down from 0 to 255 and never ends. The third row is that of the `]`, on
the way back to the `[`. -/
theorem run_tabulates_back :
    let p : Program := ⟨#[⟨.decrement, 0⟩, ⟨.loopOpen, 1⟩, ⟨.loopClose, 2⟩]⟩
    let job : Job := ⟨p, ⟨#[none, some 2, some 1], 1⟩, .table⟩
    let m : Machine := ⟨Tape.new 1 .wrap, 0, 0, [.byte 7], {}, none⟩
    let start := (m.begin job).1
    JumpTable.ofProgram p = .ok job.jumps ∧ m.output.Flawless ∧
      ∃ m' lines, start.after job 3 = some m' ∧ Tabulates job start 3 lines ∧
        m'.output = m.output.append (Table.bytes lines) ∧
        lines[4]? = some
          "2    | 2   | 0   | 255  |  ]    | Cell != 0; jump back to matching '[' at IP 1" := by
  intro p job m start
  have h : JumpTable.ofProgram p = .ok job.jumps := rfl
  have ho : m.output.Flawless := ⟨rfl, rfl, rfl, rfl⟩
  have htwo : (start.after job 2).map (fun m => (m.pc, m.tape.pointer, m.tape.cell)) =
      some (2, 0, 255) := by decide +kernel
  have hthree : (start.after job 3).map (fun m => (m.pc, m.tape.cell)) = some (1, 255) := by
    decide +kernel
  obtain ⟨m', hn, hm'⟩ := Option.map_eq_some_iff.1 hthree
  obtain ⟨hsteps, _, _, hafter, _⟩ := run_tabulates h ho
  obtain ⟨lines, hlines, houtput⟩ := hafter 3 m' hn
  obtain ⟨before, after, i, action, line, hbefore, hi, hafter, hline, hshows, htells⟩ :=
    hlines.row 2 (by decide)
  rw [hbefore] at htwo
  obtain ⟨hpc, hpointer, hcell⟩ : before.pc = 2 ∧ before.tape.pointer = 0 ∧
      before.tape.cell = 255 := by simpa using htwo
  obtain rfl : i = .loopClose := by
    have hi' := (pending_eq_ok_iff.1 hi).1
    rw [hpc] at hi'
    exact (Option.some.inj hi').symm
  cases hn.symm.trans hafter
  have hzero : start.steps + 2 = 2 := by rw [hsteps]
  rw [hzero, hpc, hpointer, hcell, Table.shows_iff] at hshows
  refine ⟨h, ho, m', lines, hn, hlines, houtput, ?_⟩
  rw [hline, hshows]
  cases htells with
  | leave _ hcell _ => cases (congrArg Prod.snd hm').symm.trans hcell
  | again _ _ _ hcounter =>
    cases (congrArg Prod.fst hm').symm.trans hcounter
    rfl

end Machine

end TapeMachine
