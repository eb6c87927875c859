import TapeMachine.Proofs.Course
import TapeMachine.Proofs.Matching

/-!
# TapeMachine.Proofs.Bounds

With the table of its own program a machine stays inside of its program and its tape, wherever the
counter starts and whoever sets the flag of its control at what moment.

* `Job.flow?_of_ofProgram` — every instruction sends the counter somewhere in the program or to
  its end.
* `Machine.InBounds`       — what holds between two steps and between two calls.
* `Machine.EndsInBounds`   — what holds of the way in which a call ends.
* `Machine.reachable_inBounds` — both hold throughout any number of calls.
-/

namespace TapeMachine

/-- The place that a failure blames, if it blames an instruction. -/
def Failure.site? : Failure → Option Site
  | rejected _ => none
  | overrun site _ => some site
  | io site _ => some site
  | stepLimit _ => none
  | canceled => none

theorem Trouble.site?_failure (trouble : Trouble) (site : Site) :
    (trouble.failure site).site? = some site := by
  cases trouble <;> rfl

theorem JumpTable.lt_size_of_target? {p : Program} {t : JumpTable} {i j : Nat}
    (h : ofProgram p = .ok t) (hij : t.target? i = some j) : j < p.size := by
  obtain ⟨b, hb, _⟩ := ((ofProgram_target?_iff h).1 hij).symm.isBracket
  exact Program.lt_size_of_getElem? hb

/-- A bracket of a program has a partner in the table, and no instruction leads out of bounds. -/
theorem Job.flow?_of_ofProgram {job : Job} (h : JumpTable.ofProgram job.program = .ok job.jumps)
    {ip : Nat} {i : Instruction} (hi : job.program.instruction? ip = some i) (cell : UInt8) :
    ∃ flow, job.flow? ip cell i = some flow ∧ flow.counter ip ≤ job.program.size := by
  have htarget : i.isBracket = true → ∃ j, job.jumps.target? ip = some j := by
    intro hb
    rw [Program.instruction?_eq_getElem?] at hi
    exact Option.isSome_iff_exists.1 ((JumpTable.target?_isSome_iff h).2 ⟨i, hi, hb⟩)
  have honward : Flow.onward.counter ip ≤ job.program.size := Program.lt_size_of_instruction? hi
  cases i with
  | loopOpen =>
    obtain ⟨j, hj⟩ := htarget rfl
    rw [Job.flow?, hj]
    split
    · exact ⟨.past j, rfl, JumpTable.lt_size_of_target? h hj⟩
    · exact ⟨.onward, rfl, honward⟩
  | loopClose =>
    obtain ⟨j, hj⟩ := htarget rfl
    rw [Job.flow?, hj]
    split
    · exact ⟨.onward, rfl, honward⟩
    · exact ⟨.back j, rfl, Nat.le_of_lt (JumpTable.lt_size_of_target? h hj)⟩
  | _ => exact ⟨.onward, rfl, honward⟩

namespace Machine

/-- What holds of a machine between two steps, by comparison with the one it started as. -/
structure InBounds (job : Job) (start m : Machine) : Prop where
  counter : m.pc ≤ job.program.size
  pointer : m.tape.pointer < m.tape.cells.size
  capacity : m.tape.cells.size = start.tape.cells.size
  policy : m.tape.policy = start.tape.policy
  /-- The instruction under the counter finds the partner that it may need. -/
  paired : ∀ i cell, job.program.instruction? m.pc = some i → job.flow? m.pc cell i ≠ none

/-- What holds of the end of a call, which leaves the machine `m`. -/
structure EndsInBounds (job : Job) (ending : Ending) (m : Machine) : Prop where
  unbroken : ∀ fault, ending ≠ .broken fault
  finished : ending = .finished → m.pc = job.program.size
  /-- Only a line above the table can fail when the counter is at the end of the program. -/
  site : ∀ cause site, ending = .failed cause → cause.site? = some site →
    site.ip ≤ job.program.size ∧ (job.mode = .live → site.ip < job.program.size)

section

variable {job : Job} {start m m' : Machine} {ending : Ending}

theorem EndsInBounds.of_failed {cause : Failure}
    (h : ∀ site, cause.site? = some site →
      site.ip ≤ job.program.size ∧ (job.mode = .live → site.ip < job.program.size)) :
    EndsInBounds job (.failed cause) m where
  unbroken _ := nofun
  finished := nofun
  site cause' site hc hsite := by
    cases hc
    exact h site hsite

theorem counter_of_next (h : JumpTable.ofProgram job.program = .ok job.jumps)
    (hs : m.advance job = .next m') : m'.pc ≤ job.program.size := by
  obtain ⟨i, hp, hstep⟩ := advance_next hs
  have hi := (pending_eq_ok_iff.1 hp).1
  obtain ⟨_, _, flow, hflow, hpc⟩ := step_next hstep
  obtain ⟨flow', hflow', hle⟩ := Job.flow?_of_ofProgram h hi m.tape.cell
  rw [hflow] at hflow'
  cases hflow'
  rwa [hpc]

theorem Reachable.counter (h : JumpTable.ofProgram job.program = .ok job.jumps)
    (hstart : start.pc ≤ job.program.size) (hm : Reachable job start m) :
    m.pc ≤ job.program.size := by
  induction hm with
  | start => exact hstart
  | begin _ ih => rwa [(still_begin job _).pc]
  | step _ hs _ => exact counter_of_next h hs
  | flag canceled _ ih => exact ih
  | stop _ hs ih => rwa [(still_of_stop hs).pc]

theorem Reachable.inBounds (h : JumpTable.ofProgram job.program = .ok job.jumps)
    (hstart : start.pc ≤ job.program.size) (hm : Reachable job start m) :
    InBounds job start m where
  counter := hm.counter h hstart
  pointer := m.tape.pointer_lt
  capacity := hm.kin.capacity
  policy := hm.kin.policy
  paired i cell hi := by
    obtain ⟨flow, hflow, _⟩ := Job.flow?_of_ofProgram h hi cell
    rw [hflow]
    exact Option.some_ne_none flow

theorem trouble_of_step_stop (h : JumpTable.ofProgram job.program = .ok job.jumps)
    {i : Instruction} (hi : job.program.instruction? m.pc = some i)
    (hs : m.step job i = .stop ending m') :
    ∃ trouble : Trouble, ending = .failed (trouble.failure (job.site m.pc)) := by
  rcases (step_stop hs).2 with ⟨_, hflow⟩ | htrouble
  · -- The work would be abandoned for the lack of a partner, but there is one.
    obtain ⟨flow, hflow', _⟩ := Job.flow?_of_ofProgram h hi m.tape.cell
    rw [hflow] at hflow'
    cases hflow'
  · exact htrouble

theorem endsInBounds_of_stop (h : JumpTable.ofProgram job.program = .ok job.jumps)
    (hpc : m.pc ≤ job.program.size) (hs : m.advance job = .stop ending m') :
    EndsInBounds job ending m' := by
  rcases advance_stop hs with ⟨hp, rfl⟩ | ⟨i, hp, hstep⟩
  · rcases pending_eq_error hp with ⟨rfl, hend⟩ | ⟨_, ⟨rfl, _⟩ | ⟨limit, rfl, _⟩⟩
    · refine ⟨fun fault => nofun, fun _ => ?_, fun cause site hc => nomatch hc⟩
      have := Program.instruction?_eq_none_iff.1 hend
      omega
    · exact .of_failed nofun
    · exact .of_failed nofun
  · have hi := (pending_eq_ok_iff.1 hp).1
    obtain ⟨trouble, rfl⟩ := trouble_of_step_stop h hi hstep
    refine .of_failed fun site hsite => ?_
    rw [Trouble.site?_failure] at hsite
    cases hsite
    have hlt := Program.lt_size_of_instruction? hi
    exact ⟨Nat.le_of_lt hlt, fun _ => hlt⟩

theorem endsInBounds_of_refused {trouble : Trouble} (hpc : m.pc ≤ job.program.size)
    (hb : m.begin job = (m', some trouble)) :
    EndsInBounds job (.failed (trouble.failure (job.site m'.pc))) m' := by
  refine .of_failed fun site hsite => ?_
  rw [Trouble.site?_failure] at hsite
  cases hsite
  have hstill := still_begin job m
  rw [hb] at hstill
  refine ⟨?_, fun hlive => ?_⟩
  · show m'.pc ≤ _
    rwa [hstill.pc]
  · rw [begin_live hlive] at hb
    cases hb

theorem Reachable.endsInBounds (h : JumpTable.ofProgram job.program = .ok job.jumps)
    (hstart : start.pc ≤ job.program.size) (hm : Reachable job start m)
    (hc : Call job m ending m') : EndsInBounds job ending m' := by
  cases hc with
  | refused hbegin => exact endsInBounds_of_refused (hm.counter h hstart) hbegin
  | ended hbegin hproceeds hstop =>
    have hm₁ := hm.begin
    rw [hbegin] at hm₁
    exact endsInBounds_of_stop h ((hm₁.proceeds hproceeds).counter h hstart) hstop

end

/-- Whatever happens to a machine that works on a program with its own table: between two steps
and between two calls it is within its bounds, and so is the end of every call. A call of `run` that
nobody interferes with is such a call. -/
theorem reachable_inBounds {p : Program} {jumps : JumpTable} (mode : Mode)
    (h : JumpTable.ofProgram p = .ok jumps) {start m : Machine} (hstart : start.pc ≤ p.size)
    (hm : Reachable ⟨p, jumps, mode⟩ start m) :
    InBounds ⟨p, jumps, mode⟩ start m ∧
      (∀ ending m', Call ⟨p, jumps, mode⟩ m ending m' →
        Reachable ⟨p, jumps, mode⟩ start m' ∧ EndsInBounds ⟨p, jumps, mode⟩ ending m') ∧
      ∀ traced fuel f, m.run ⟨p, jumps, mode⟩ traced fuel = some f →
        Call ⟨p, jumps, mode⟩ m f.ending f.machine :=
  ⟨hm.inBounds h hstart, fun _ _ hc => ⟨hm.call hc, hm.endsInBounds h hstart hc⟩,
    fun _ _ _ hrun => call_of_run hrun⟩

/-- Starting behind the body of `[-]` on a cell that is not zero, the machine goes back to the `[`
of a loop that it never entered. -/
theorem reachable_inBounds_halfway :
    let p : Program := ⟨#[⟨.loopOpen, 0⟩, ⟨.decrement, 1⟩, ⟨.loopClose, 2⟩]⟩
    let jumps : JumpTable := ⟨#[some 2, none, some 0], 1⟩
    let start : Machine := ⟨(Tape.new 1 .strict).increment, 2, 0, [], {}, none⟩
    let m : Machine := { start with pc := 0, steps := 1 }
    JumpTable.ofProgram p = .ok jumps ∧ start.pc ≤ p.size ∧ Reachable ⟨p, jumps, .live⟩ start m ∧
      InBounds ⟨p, jumps, .live⟩ start m := by
  intro p jumps start m
  have h : JumpTable.ofProgram p = .ok jumps := rfl
  have hstart : start.pc ≤ p.size := by decide
  have hm : Reachable ⟨p, jumps, .live⟩ start m := .step .start rfl
  exact ⟨h, hstart, hm, (reachable_inBounds .live h hstart hm).1⟩

end Machine

end TapeMachine
