import TapeMachine.Log.Event
import TapeMachine.Proofs.Endings
import TapeMachine.Proofs.Trace

/-!
# TapeMachine.Proofs.Chronicle

The log of an evaluation tells the same story as the evaluation, also when others set or clear the
flag of the control in the meantime.

* `Log.Entry`            — a line of the log by its parts, with the entries that interpreters make.
* `Machine.Finishes`     — one call of `run` with the views that it keeps, others being at the
  flag; `finishes_of_run` says that a call left alone is one of them.
* `Interpreter.Accounts` — such an evaluation of a text with its notes. Without the notes these are
  the evaluations that `Executes` speaks of, `executes_iff`.
* `Machine.Sees`         — steps, with what could be seen before each.
* `Machine.Recounts`     — the ways in which an evaluation can end, each with the number of steps
  that it has made and with what could be seen before its attempts at one.
* `recounts_of_finishes` — the views that are kept are those before the attempts.
* `execute_logs`         — the whole log, beside the account of the evaluation and its table.
-/

namespace TapeMachine

namespace Log

/-- A line of the log by its parts. -/
structure Entry where
  level : Level
  message : String
  fields : List (String × String)

namespace Entry

def line (e : Entry) : String :=
  String.intercalate " "
    (e.level.name :: e.message :: e.fields.map fun (name, value) => name ++ "=" ++ value)

def reset : Entry := ⟨.debug, "interpreter reset", []⟩

def rejected (cause : Rejection) : Entry := ⟨.debug, "program rejected", [("error", cause.message)]⟩

def indexed (instructions loops : Nat) : Entry :=
  ⟨.debug, "program indexed",
    [("instructions", toString instructions), ("loops", toString loops)]⟩

def started (policy : Policy) (capacity : Nat) : Entry :=
  ⟨.debug, "evaluation started", [("policy", policy.name), ("capacity", toString capacity)]⟩

def step (v : View) : Entry :=
  ⟨.trace, "step",
    [("ip", toString v.ip), ("ptr", toString v.pointer), ("cell", toString v.cell),
      ("op", v.instruction.symbol.toString)]⟩

/-- The last entry of an evaluation that has made some steps. -/
inductive Closes (steps : Nat) : Ending → Entry → Prop where
  | finished : Closes steps .finished ⟨.debug, "evaluation finished", [("steps", toString steps)]⟩
  | failed (cause : Failure) :
      Closes steps (.failed cause)
        ⟨.debug, "evaluation failed", [("steps", toString steps), ("error", cause.message)]⟩

end Entry

end Log

/-- The lines of the log that an evaluation leaves. -/
def Evaluation.log (e : Evaluation) : List String :=
  e.notes.toList.map fun note => (Log.Event.noted note).line

namespace Machine

/-- Steps and changes of the flag, in any order, with the views that are kept after those that have
been kept before. -/
inductive Records (job : Job) : Machine → Array View → Machine → Array View → Prop where
  | refl (m : Machine) (kept : Array View) : Records job m kept m kept
  | step {m m' last : Machine} {kept views : Array View} (h : m.advance job = .next m')
      (rest : Records job m' (m.record job true kept) last views) : Records job m kept last views
  | flag {m last : Machine} {kept views : Array View} (canceled : Bool)
      (rest : Records job (m.flagged canceled) kept last views) : Records job m kept last views

/-- One call of `run` that keeps its views, during which others may change the flag. -/
inductive Finishes (job : Job) (m : Machine) : Finish → Prop where
  | refused {m' : Machine} {trouble : Trouble} (h : m.begin job = (m', some trouble)) :
      Finishes job m ⟨.failed (trouble.failure (job.site m'.pc)), m', #[]⟩
  | ended {start last m' : Machine} {kept : Array View} {ending : Ending}
      (hbegin : m.begin job = (start, none)) (hrecords : Records job start #[] last kept)
      (hstop : last.advance job = .stop ending m') :
      Finishes job m ⟨ending, m', last.record job true kept⟩

/-- Steps, between which others may change the flag, with the counter, the pointer, the cell under
it and the instruction before each of them. -/
inductive Sees (job : Job) : Machine → List View → Machine → Prop where
  | here (m : Machine) : Sees job m [] m
  | step {m m' last : Machine} {i : Instruction} {views : List View}
      (hpending : m.pending job = .ok i) (hstep : m.step job i = .next m')
      (rest : Sees job m' views last) :
      Sees job m (⟨m.pc, m.tape.pointer, m.tape.cell, i⟩ :: views) last
  | flag {m last : Machine} {views : List View} (canceled : Bool)
      (rest : Sees job (m.flagged canceled) views last) : Sees job m views last

/-- How an evaluation has ended, after how many steps, and what could be seen before its attempts at
a step. There is one attempt for every step, and one more where the last of them failed. -/
inductive Recounts (job : Job) (m : Machine) : Ending → Nat → List View → Prop where
  /-- A line above the table was refused, before any attempt. -/
  | refused {m' : Machine} {text : String} (hbegin : m.begin job = (m', some (.io text))) :
      Recounts job m (.failed (.io (job.site m'.pc) text)) 0 []
  | finished {start last : Machine} {views : List View} (hbegin : m.begin job = (start, none))
      (hviews : Sees job start views last) (hend : job.program.instruction? last.pc = none) :
      Recounts job m .finished views.length views
  | canceled {start last : Machine} {views : List View} (hbegin : m.begin job = (start, none))
      (hviews : Sees job start views last) (hflag : last.canceled = true) :
      Recounts job m (.failed .canceled) views.length views
  | stepLimit {start last : Machine} {views : List View} {limit : Nat}
      (hbegin : m.begin job = (start, none)) (hviews : Sees job start views last)
      (hlimit : last.limit? = some limit) (hreached : limit ≤ last.steps) :
      Recounts job m (.failed (.stepLimit limit)) views.length views
  /-- The tape was overrun, or a byte or a line could not be read or written, in a step. -/
  | failed {start last m' : Machine} {views : List View} {i : Instruction} {trouble : Trouble}
      (hbegin : m.begin job = (start, none)) (hviews : Sees job start views last)
      (hpending : last.pending job = .ok i)
      (hstep : last.step job i = .stop (.failed (trouble.failure (job.site last.pc))) m') :
      Recounts job m (.failed (trouble.failure (job.site last.pc))) views.length
        (views ++ [⟨last.pc, last.tape.pointer, last.tape.cell, i⟩])

variable {job : Job} {m m' start last : Machine} {i : Instruction} {ending : Ending} {n k : Nat}
  {kept kept' : Array View} {views : List View} {f : Finish}

/-! ## What is kept -/

theorem toList_record (hi : m.pending job = .ok i) (kept : Array View) :
    (m.record job true kept).toList =
      kept.toList ++ [⟨m.pc, m.tape.pointer, m.tape.cell, i⟩] := by
  simp only [record, hi, if_true, Array.toList_push]
  rfl

theorem record_of_pending_error (hp : m.pending job = .error ending) (traced : Bool)
    (kept : Array View) : m.record job traced kept = kept := by
  rw [record, hp]

theorem Records.sees (h : Records job m kept last kept') :
    ∃ views, Sees job m views last ∧ kept'.toList = kept.toList ++ views := by
  -- By induction on the steps: what is kept in addition is what could be seen.
  induction h with
  | refl m kept => exact ⟨[], .here m, (List.append_nil _).symm⟩
  | step hs _ ih =>
    obtain ⟨i, hi, hstep⟩ := advance_next hs
    obtain ⟨views, hsees, hkept⟩ := ih
    refine ⟨_, .step hi hstep hsees, ?_⟩
    rw [hkept, toList_record hi, List.append_assoc]
    rfl
  | flag canceled _ ih =>
    obtain ⟨views, hsees, hkept⟩ := ih
    exact ⟨views, .flag canceled hsees, hkept⟩

theorem Records.proceeds (h : Records job m kept last kept') : Proceeds job m last := by
  induction h with
  | refl m _ => exact .refl m
  | step hs _ ih => exact .step hs ih
  | flag canceled _ ih => exact .flag canceled ih

theorem Proceeds.exists_records (h : Proceeds job m last) (kept : Array View) :
    ∃ kept', Records job m kept last kept' := by
  induction h generalizing kept with
  | refl m => exact ⟨kept, .refl m kept⟩
  | step hs _ ih =>
    obtain ⟨kept', hrest⟩ := ih _
    exact ⟨kept', .step hs hrest⟩
  | flag canceled _ ih =>
    obtain ⟨kept', hrest⟩ := ih kept
    exact ⟨kept', .flag canceled hrest⟩

theorem call_iff : Call job m ending m' ↔ ∃ views, Finishes job m ⟨ending, m', views⟩ := by
  constructor
  · rintro (⟨hbegin⟩ | ⟨hbegin, hproceeds, hstop⟩)
    · exact ⟨_, .refused hbegin⟩
    · obtain ⟨kept, hrecords⟩ := hproceeds.exists_records #[]
      exact ⟨_, .ended hbegin hrecords hstop⟩
  · rintro ⟨views, h⟩
    cases h with
    | refused hbegin => exact .refused hbegin
    | ended hbegin hrecords hstop => exact .ended hbegin hrecords.proceeds hstop

theorem records_of_proceed {fuel : Nat} (h : m.proceed job true fuel kept = some f) :
    ∃ last kept', Records job m kept last kept' ∧
      last.advance job = .stop f.ending f.machine ∧ f.views = last.record job true kept' := by
  induction fuel generalizing kept m with
  | zero => cases h
  | succ fuel ih =>
    rw [proceed_succ_eq] at h
    cases hs : m.advance job with
    | next m₁ =>
      rw [hs] at h
      obtain ⟨last, kept', hrecords, hstop, hviews⟩ := ih h
      exact ⟨last, kept', .step hs hrecords, hstop, hviews⟩
    | stop ending m₁ =>
      rw [hs] at h
      cases h
      exact ⟨m, kept, .refl m kept, hs, rfl⟩

/-- What `run` comes to by itself is what a call may come to. -/
theorem finishes_of_run {fuel : Nat} (h : m.run job true fuel = some f) : Finishes job m f := by
  cases hbegin : m.begin job with
  | mk start trouble =>
    rw [run, hbegin] at h
    cases trouble with
    | some trouble =>
      cases h
      exact .refused hbegin
    | none =>
      obtain ⟨last, kept, hrecords, hstop, hviews⟩ := records_of_proceed h
      obtain ⟨ending, m', views⟩ := f
      cases hviews
      exact .ended hbegin hrecords hstop

/-! ## What can be seen -/

theorem Sees.steps (h : Sees job m views last) : last.steps = m.steps + views.length := by
  induction h with
  | here => rfl
  | step hi hstep _ ih =>
    have hone := steps_of_next ((advance_of_pending hi).trans hstep)
    rw [ih, hone, List.length_cons]
    omega
  | flag _ _ ih => exact ih

theorem Sees.rows (h : JumpTable.ofProgram job.program = .ok job.jumps)
    (hmode : job.mode = .table) (hsees : Sees job m views last) (ho : m.output.Flawless) :
    ∃ lines, lines.length = views.length ∧ last.output = m.output.append (Table.bytes lines) ∧
      ∀ k view, views[k]? = some view → ∃ action line, lines[k]? = some line ∧
        Table.Shows (m.steps + k) view action line := by
  induction hsees with
  | here m => exact ⟨[], rfl, (Output.append_nil _).symm, nofun⟩
  | @step m m' last i views hi hstep _ ih =>
    have hs : m.advance job = .next m' := (advance_of_pending hi).trans hstep
    obtain ⟨line, hdue, _, _, houtput⟩ := advance_table_next hmode ho hs
    obtain ⟨action, line', hdue', hshows, _⟩ := row_of_step h hmode ho hi hstep
    cases hdue.symm.trans hdue'
    have ho' : m'.output.Flawless := by
      rw [houtput]
      exact ho.append _
    obtain ⟨lines, hlength, hlast, hrows⟩ := ih ho'
    refine ⟨line :: lines, congrArg (· + 1) hlength, ?_, fun k view hview => ?_⟩
    · rw [hlast, houtput, Output.append_append, ← Table.bytes_append]
      rfl
    · cases k with
      | zero =>
        cases hview
        exact ⟨action, line, rfl, hshows⟩
      | succ k =>
        obtain ⟨action, line, hline, hshows⟩ := hrows k view hview
        rw [steps_of_next hs, Nat.add_assoc, Nat.add_comm 1] at hshows
        exact ⟨action, line, hline, hshows⟩
  | flag _ _ ih => exact ih ho

/-! ## Evaluations -/

theorem sendLines_trouble {lines : List String} {trouble : Trouble}
    (h : m.sendLines lines = (m', some trouble)) : ∃ text, trouble = .io text := by
  induction lines generalizing m with
  | nil => cases h
  | cons line rest ih =>
    rw [sendLines] at h
    split at h
    · exact ih h
    · rename_i m₁ trouble' hline
      cases h
      obtain ⟨text, _, rfl⟩ := Option.map_eq_some_iff.1 (congrArg Prod.snd hline)
      exact ⟨text, rfl⟩

theorem begin_trouble {trouble : Trouble} (h : m.begin job = (m', some trouble)) :
    ∃ text, trouble = .io text := by
  rw [begin] at h
  split at h
  · cases h
  · exact sendLines_trouble h

theorem steps_of_begin {trouble : Option Trouble} (h : m.begin job = (start, trouble)) :
    start.steps = m.steps := by
  have hstill := (still_begin job m).steps
  rwa [h] at hstill

theorem Recounts.unbroken (h : Recounts job m ending n views) (fault : Fault) :
    ending ≠ .broken fault := by
  cases h <;> exact nofun

/-- Every call for a program with its own table is recounted by the views that are kept. -/
theorem recounts_of_finishes (h : JumpTable.ofProgram job.program = .ok job.jumps)
    (hf : Finishes job m f) :
    ∃ n, f.machine.steps = m.steps + n ∧ Recounts job m f.ending n f.views.toList := by
  cases hf with
  | refused hbegin =>
    obtain ⟨text, rfl⟩ := begin_trouble hbegin
    exact ⟨0, steps_of_begin hbegin, .refused hbegin⟩
  | @ended start last m' kept ending hbegin hrecords hstop =>
    obtain ⟨views, hsees, hkept⟩ := hrecords.sees
    have hkept : kept.toList = views := hkept
    refine ⟨views.length, ?_, ?_⟩
    · rw [(still_of_stop hstop).steps, hsees.steps, steps_of_begin hbegin]
    rcases advance_stop hstop with ⟨hp, _⟩ | ⟨i, hi, hstep⟩
    · rw [record_of_pending_error hp, hkept]
      rcases pending_eq_error hp with
        ⟨rfl, hend⟩ | ⟨_, ⟨rfl, hflag⟩ | ⟨limit, rfl, hlimit, hreached⟩⟩
      · exact .finished hbegin hsees hend
      · exact .canceled hbegin hsees hflag
      · exact .stepLimit hbegin hsees hlimit hreached
    · obtain ⟨trouble, rfl⟩ := trouble_of_step_stop h (pending_eq_ok_iff.1 hi).1 hstep
      rw [toList_record hi, hkept]
      exact .failed hbegin hsees hi hstep

theorem getElem?_record (traced : Bool) {v : View} (h : kept.toList[k]? = some v) :
    (m.record job traced kept).toList[k]? = some v := by
  rw [record]
  split
  · exact h
  · split
    · rw [Array.toList_push, List.getElem?_append_left (List.getElem?_eq_some_iff.1 h).1]
      exact h
    · exact h

/-- Where every line of the table is taken, each of its rows shows the view before its step. -/
theorem shows_of_finishes (h : JumpTable.ofProgram job.program = .ok job.jumps)
    (hmode : job.mode = .table) (ho : m.output.Flawless) (hf : Finishes job m f)
    (hsteps : f.machine.steps = m.steps + n) :
    ∃ lines, lines.length = 2 + n ∧ f.machine.output = m.output.append (Table.bytes lines) ∧
      ∀ k < n, ∃ view action line, f.views.toList[k]? = some view ∧ lines[2 + k]? = some line ∧
        Table.Shows (m.steps + k) view action line := by
  have hheader := begin_table hmode ho
  cases hf with
  | refused hbegin => cases hheader.symm.trans hbegin
  | @ended start last m' kept ending hbegin hrecords hstop =>
    cases hheader.symm.trans hbegin
    obtain ⟨views, hsees, hkept⟩ := hrecords.sees
    have hkept : kept.toList = views := hkept
    have ho' : (m.noted Table.header).output.Flawless := ho.append _
    obtain ⟨lines, hlength, hlast, hrows⟩ := hsees.rows h hmode ho'
    have hn : views.length = n := by
      have hlast' := hsees.steps
      have hstart := steps_of_begin hbegin
      have hstill := (still_of_stop hstop).steps
      simp only at hsteps
      omega
    have hflawless : last.output.Flawless := by
      rw [hlast]
      exact ho'.append _
    refine ⟨Table.header ++ lines, ?_, ?_, fun k hk => ?_⟩
    · rw [List.length_append, hlength, hn]
      rfl
    · rw [(advance_table_stop hmode hflawless hstop).2, hlast, Table.bytes_append,
        ← Output.append_append]
      rfl
    · obtain ⟨view, hview⟩ : ∃ view, views[k]? = some view :=
        ⟨_, List.getElem?_eq_getElem (hn ▸ hk)⟩
      obtain ⟨action, line, hline, hshows⟩ := hrows k view hview
      refine ⟨view, action, line, getElem?_record true (hkept ▸ hview), ?_, hshows⟩
      rw [← hline, Nat.add_comm]
      rfl

end Machine

namespace Interpreter

/-- An evaluation of a text with its notes, during which others may set or clear the flag. -/
inductive Accounts (mode : Mode) (source : String) (input : Input) (output : Output)
    (it : Interpreter) : Evaluation → Prop where
  | rejected {cause : Rejection} (h : read source = .error cause) :
      Accounts mode source input output it
        ⟨.failed (.rejected cause), it.reset, input, output, #[.reset, .rejected cause]⟩
  | ran {program : Program} {jumps : JumpTable} {f : Finish}
      (h : read source = .ok (program, jumps))
      (hcall : Machine.Finishes ⟨program, jumps, mode⟩ (it.reset.machine input output) f) :
      Accounts mode source input output it
        ⟨f.ending, ofMachine program jumps f.machine, f.machine.input, f.machine.output,
          it.reset.notes program jumps f⟩

variable {mode : Mode} {source : String} {input input' : Input} {output output' : Output}
  {it it' : Interpreter} {ending : Ending} {program : Program} {jumps : JumpTable}
  {e : Evaluation}

theorem accounts_of_execute {fuel : Nat}
    (h : it.execute mode true fuel source input output = some e) :
    it.Accounts mode source input output e := by
  cases hread : read source with
  | error cause =>
    rw [execute_of_error hread] at h
    cases h
    exact .rejected hread
  | ok loaded =>
    rw [execute_of_ok hread] at h
    obtain ⟨f, hrun, rfl⟩ := Option.map_eq_some_iff.1 h
    exact .ran hread (Machine.finishes_of_run hrun)

theorem executes_iff :
    Executes mode source input output it ending it' input' output' ↔
      ∃ notes, it.Accounts mode source input output ⟨ending, it', input', output', notes⟩ := by
  constructor
  · intro h
    cases h with
    | rejected hread => exact ⟨_, .rejected hread⟩
    | ran hread hcall =>
      obtain ⟨views, hcall⟩ := Machine.call_iff.1 hcall
      exact ⟨_, .ran hread hcall⟩
  · rintro ⟨notes, h⟩
    cases h with
    | rejected hread => exact .rejected hread
    | ran hread hcall => exact .ran hread (Machine.call_iff.2 ⟨_, hcall⟩)

theorem closes_lastNote {n : Nat} (h : ∀ fault, ending ≠ .broken fault) :
    ∃ closing, Log.Entry.Closes n ending closing ∧
      (lastNote n ending).map (fun note => (Log.Event.noted note).line) = [closing.line] := by
  cases ending with
  | finished => exact ⟨_, .finished, rfl⟩
  | failed cause => exact ⟨_, .failed cause, rfl⟩
  | broken fault => exact absurd rfl (h fault)

theorem log_notes (program : Program) (jumps : JumpTable) (it : Interpreter) (f : Finish) :
    (it.reset.notes program jumps f).toList.map (fun note => (Log.Event.noted note).line) =
      [Log.Entry.reset.line, (Log.Entry.indexed program.size jumps.pairs).line,
          (Log.Entry.started it.tape.policy it.tape.capacity).line] ++
        f.views.toList.map (fun view => (Log.Entry.step view).line) ++
        (lastNote f.machine.steps f.ending).map fun note => (Log.Event.noted note).line := by
  have hcapacity : it.reset.tape.capacity = it.tape.capacity := it.tape.size_cells_reset
  simp only [notes, hcapacity, Array.toList_append, Array.toList_map, Array.toList_appendList,
    List.map_append, List.map_map]
  rfl

/-- The log of an evaluation with all its details, be it left alone or not. A text that is rejected
leaves two lines, the second with the reason. An evaluation of any other text that comes to an end
begins with three lines, about the reset, the size of the program, and the tape. Then there is a
line for every attempt at a step, with what could be seen before it, and a last line with the number
of steps and with the failure, if it failed. `Recounts` tells the steps from the attempts by the way
in which it ended. In front of every row of a table that is taken as a whole stands what the line of
its step tells. -/
theorem execute_logs (it : Interpreter) (mode : Mode) (source : String) (input : Input)
    (output : Output) :
    (∀ fuel e, it.execute mode true fuel source input output = some e →
      it.Accounts mode source input output e) ∧
    (∀ ending it' input' output',
      Executes mode source input output it ending it' input' output' ↔
        ∃ notes, it.Accounts mode source input output ⟨ending, it', input', output', notes⟩) ∧
    (∀ cause, read source = .error cause →
      (∀ traced fuel, ∃ e, it.execute mode traced fuel source input output = some e ∧
        e.log = [Log.Entry.reset.line, (Log.Entry.rejected cause).line]) ∧
      ∀ e, it.Accounts mode source input output e →
        e.log = [Log.Entry.reset.line, (Log.Entry.rejected cause).line]) ∧
    ∀ program jumps e, read source = .ok (program, jumps) →
      it.Accounts mode source input output e → ∃ n views closing,
        e.log =
          [Log.Entry.reset.line, (Log.Entry.indexed program.size jumps.pairs).line,
              (Log.Entry.started it.tape.policy it.tape.capacity).line] ++
            views.map (fun view => (Log.Entry.step view).line) ++ [closing.line] ∧
        Log.Entry.Closes n e.ending closing ∧
        Machine.Recounts ⟨program, jumps, mode⟩ (it.reset.machine input output) e.ending n views ∧
        (mode = .table → output.Flawless → ∃ lines, lines.length = 2 + n ∧
          e.output = output.append (Table.bytes lines) ∧
          ∀ k < n, ∃ view action line, views[k]? = some view ∧ lines[2 + k]? = some line ∧
            Table.Shows k view action line) := by
  refine ⟨fun fuel e => accounts_of_execute, fun _ _ _ _ => executes_iff,
    fun cause hread => ⟨fun traced fuel => ⟨_, execute_of_error hread, rfl⟩, fun e he => ?_⟩,
    fun program jumps e hread he => ?_⟩
  · cases he with
    | rejected hread' =>
      cases hread.symm.trans hread'
      rfl
    | ran hread' _ => cases hread.symm.trans hread'
  · cases he with
    | rejected hread' => cases hread.symm.trans hread'
    | @ran _ _ f hread' hcall =>
      cases hread.symm.trans hread'
      have hjumps := (read_eq_ok hread).2
      obtain ⟨n, hsteps, hrecounts⟩ := Machine.recounts_of_finishes hjumps hcall
      have hn : f.machine.steps = n := hsteps.trans (Nat.zero_add n)
      obtain ⟨closing, hcloses, hlast⟩ := closes_lastNote (n := n) hrecounts.unbroken
      refine ⟨n, f.views.toList, closing, ?_, hcloses, hrecounts, fun hmode ho => ?_⟩
      · rw [← hlast, ← hn]
        exact log_notes program jumps it f
      · obtain ⟨lines, hlength, houtput, hshows⟩ :=
          Machine.shows_of_finishes hjumps hmode ho hcall hsteps
        refine ⟨lines, hlength, houtput, fun k hk => ?_⟩
        obtain ⟨view, action, line, hview, hline, hrow⟩ := hshows k hk
        rw [show (it.reset.machine input output).steps = 0 from rfl, Nat.zero_add] at hrow
        exact ⟨view, action, line, hview, hline, hrow⟩

/-- The third step of a table leaves the tape: there is a line for it, but no row. A live evaluation
is cancelled by others before its first step. -/
theorem execute_logs_overrun :
    let it := Interpreter.new 1 .strict
    let program : Program := ⟨#[⟨.read, 0⟩, ⟨.increment, 1⟩, ⟨.moveRight, 2⟩]⟩
    let jumps : JumpTable := ⟨#[none, none, none], 0⟩
    let failure := Failure.overrun ⟨2, 2⟩ (.pastLast 0)
    read "+]" = .error (.unmatchedClose 2 1) ∧
    (∃ e, it.execute .live false 0 "+]" [] {} = some e ∧
      e.log =
        ["DEBUG interpreter reset",
          "DEBUG program rejected error=']' without matching '[' (position: 2)"]) ∧
    read ",+>" = .ok (program, jumps) ∧ ({} : Output).Flawless ∧
    (∃ e, it.execute .table true 4 ",+>" [] {} = some e ∧ e.ending = .failed failure ∧
      e.log =
        ["DEBUG interpreter reset",
          "DEBUG program indexed instructions=3 loops=0",
          "DEBUG evaluation started policy=strict capacity=1",
          "TRACE step ip=0 ptr=0 cell=0 op=,",
          "TRACE step ip=1 ptr=0 cell=0 op=+",
          "TRACE step ip=2 ptr=0 cell=1 op=>",
          "DEBUG evaluation failed steps=2 error=Out of memory at instruction 2 (ptr=0)"] ∧
      ∃ views closing lines,
        e.log =
          [Log.Entry.reset.line, (Log.Entry.indexed 3 0).line,
              (Log.Entry.started .strict 1).line] ++
            views.map (fun view => (Log.Entry.step view).line) ++ [closing.line] ∧
        Log.Entry.Closes 2 (.failed failure) closing ∧
        Machine.Recounts ⟨program, jumps, .table⟩ (it.reset.machine [] {}) (.failed failure) 2
          views ∧
        e.output = Output.append (Table.bytes lines) {} ∧
        ∀ k < 2, ∃ view action line, views[k]? = some view ∧ lines[2 + k]? = some line ∧
          Table.Shows k view action line) ∧
    ∃ e, (it.setControl {}).Accounts .live ",+>" [] {} e ∧
      e.log =
        ["DEBUG interpreter reset",
          "DEBUG program indexed instructions=3 loops=0",
          "DEBUG evaluation started policy=strict capacity=1",
          "DEBUG evaluation failed steps=0 error=Execution aborted: cancelled"] := by
  intro it program jumps failure
  have hbad : read "+]" = .error (.unmatchedClose 2 1) := rfl
  have hread : read ",+>" = .ok (program, jumps) := rfl
  have hflawless : ({} : Output).Flawless := ⟨rfl, rfl, rfl, rfl⟩
  obtain ⟨haccounts, _, _, htold⟩ := execute_logs it .table ",+>" [] {}
  refine ⟨hbad, ?_, hread, hflawless, ?_, ?_⟩
  · obtain ⟨e, he, hlog⟩ := ((execute_logs it .live "+]" [] {}).2.2.1 _ hbad).1 false 0
    exact ⟨e, he, hlog.trans (by decide +kernel)⟩
  · have hrun : (it.execute .table true 4 ",+>" [] {}).map (fun e => (e.ending, e.log)) =
        some (.failed failure,
          ["DEBUG interpreter reset",
            "DEBUG program indexed instructions=3 loops=0",
            "DEBUG evaluation started policy=strict capacity=1",
            "TRACE step ip=0 ptr=0 cell=0 op=,",
            "TRACE step ip=1 ptr=0 cell=0 op=+",
            "TRACE step ip=2 ptr=0 cell=1 op=>",
            "DEBUG evaluation failed steps=2 error=Out of memory at instruction 2 (ptr=0)"]) := by
      decide +kernel
    obtain ⟨e, he, hmap⟩ := Option.map_eq_some_iff.1 hrun
    have hending : e.ending = .failed (.overrun ⟨2, 2⟩ (.pastLast 0)) := congrArg Prod.fst hmap
    have hlines := congrArg Prod.snd hmap
    obtain ⟨n, views, closing, hlog, hcloses, hrecounts, htable⟩ :=
      htold program jumps e hread (haccounts 4 e he)
    obtain ⟨lines, _, houtput, hshows⟩ := htable rfl hflawless
    have hviews : views.length = 3 := by
      have hsame := congrArg List.length (hlog.symm.trans hlines)
      simpa using hsame
    obtain rfl : n = 2 := by
      generalize he : e.ending = ending at hrecounts
      cases hrecounts with
      | failed _ _ _ _ => simpa using hviews
      | _ => cases he.symm.trans hending
    rw [hending] at hcloses hrecounts
    exact ⟨e, he, hending, hlines, views, closing, lines, hlog, hcloses, hrecounts, houtput, hshows⟩
  · have hcall : Machine.Finishes ⟨program, jumps, .live⟩
        ((it.setControl {}).reset.machine [] {}) _ :=
      .ended rfl (.flag true (.refl _ _)) rfl
    exact ⟨_, .ran hread hcall, by decide +kernel⟩

end Interpreter

end TapeMachine
