import TapeMachine.Machine.Run

/-!
# TapeMachine.Proofs.Frame

What the work of a machine leaves alone.

* `Machine.Kin`   — two machines with tapes of the same size and policy and the same step limit.
* `Machine.Still` — besides that, the counter and the number of steps are the same.
* `Machine.step_next`, `step_stop` — all that a step can come to, for the proofs that need to know
  where the counter goes and what cannot change.
* `Machine.step_live_next`, `step_live_stop` — the same where no table is written, with what the
  instruction itself has done.
-/

namespace TapeMachine

namespace Tape

theorem size_cells_increment (t : Tape) : t.increment.cells.size = t.cells.size := by
  rw [increment, size_cells_store]

theorem size_cells_decrement (t : Tape) : t.decrement.cells.size = t.cells.size := by
  rw [decrement, size_cells_store]

end Tape

/-- What an instruction that has to do with the tape alone makes of it. -/
def Instruction.onTape : Instruction → Tape → Except Overrun Tape
  | .increment, t => .ok t.increment
  | .decrement, t => .ok t.decrement
  | .moveRight, t => t.forward
  | .moveLeft, t => t.backward
  | _, t => .ok t

namespace Machine

/-- The tapes have the same size and policy, and the step limit is the same. -/
structure Kin (m m' : Machine) : Prop where
  capacity : m'.tape.cells.size = m.tape.cells.size
  policy : m'.tape.policy = m.tape.policy
  limit : m'.control.map (·.maxSteps) = m.control.map (·.maxSteps)

/-- Besides that, the counter stands where it stood and no step was counted. -/
structure Still (m m' : Machine) : Prop extends Kin m m' where
  pc : m'.pc = m.pc
  steps : m'.steps = m.steps

variable {job : Job} {i : Instruction} {m m' m'' : Machine} {ending : Ending}

theorem Kin.refl (m : Machine) : Kin m m := ⟨rfl, rfl, rfl⟩

theorem Kin.trans (h : Kin m m') (h' : Kin m' m'') : Kin m m'' :=
  ⟨h'.capacity.trans h.capacity, h'.policy.trans h.policy, h'.limit.trans h.limit⟩

theorem Kin.control_eq_none (h : Kin m m') (hc : m.control = none) : m'.control = none := by
  have hl := h.limit
  rw [hc] at hl
  exact Option.map_eq_none_iff.1 hl

theorem Still.refl (m : Machine) : Still m m := ⟨.refl m, rfl, rfl⟩

theorem Still.trans (h : Still m m') (h' : Still m' m'') : Still m m'' :=
  ⟨h.toKin.trans h'.toKin, h'.pc.trans h.pc, h'.steps.trans h.steps⟩

/-- A flag that may be set in between does not concern the limit. -/
theorem maxSteps_cancelIf (control : Option Control) (now : Bool) :
    (control.map (·.cancelIf now)).map (·.maxSteps) = control.map (·.maxSteps) := by
  cases control <;> rfl

/-! ## Single instructions -/

theorem still_moved {r : Except Overrun Tape}
    (h : ∀ t, r = .ok t → t.cells = m.tape.cells ∧ t.policy = m.tape.policy) :
    Still m (m.moved r).1 := by
  cases r with
  | ok t =>
    obtain ⟨hcells, hpolicy⟩ := h t rfl
    exact ⟨⟨congrArg Array.size hcells, hpolicy, rfl⟩, rfl, rfl⟩
  | error cause => exact .refl m

theorem adjust_eq_moved (i : Instruction) (m : Machine) :
    m.adjust i = m.moved (i.onTape m.tape) := by
  cases i <;> rfl

theorem still_adjust (i : Instruction) (m : Machine) : Still m (m.adjust i).1 := by
  cases i with
  | increment => exact ⟨⟨m.tape.size_cells_increment, rfl, rfl⟩, rfl, rfl⟩
  | decrement => exact ⟨⟨m.tape.size_cells_decrement, rfl, rfl⟩, rfl, rfl⟩
  | moveRight => exact still_moved fun t ht => Tape.forward_eq_ok ht
  | moveLeft => exact still_moved fun t ht => Tape.backward_eq_ok ht
  | read => exact .refl m
  | write => exact .refl m
  | loopOpen => exact .refl m
  | loopClose => exact .refl m

theorem still_receive (m : Machine) : Still m m.receive.1 := by
  obtain ⟨tape, pc, steps, input, output, control⟩ := m
  simp only [receive]
  split
  · exact ⟨⟨tape.size_cells_store _, rfl, maxSteps_cancelIf _ _⟩, rfl, rfl⟩
  · exact ⟨⟨rfl, rfl, maxSteps_cancelIf _ _⟩, rfl, rfl⟩

theorem still_sendBy (act : Output → Output × Option String) (m : Machine) :
    Still m (m.sendBy act).1 :=
  ⟨⟨rfl, rfl, maxSteps_cancelIf _ _⟩, rfl, rfl⟩

theorem still_perform (i : Instruction) (m : Machine) : Still m (m.perform i).1 := by
  cases i with
  | read => exact still_receive m
  | write => exact still_sendBy _ m
  | _ => exact still_adjust _ m

theorem still_rehearse (i : Instruction) (m : Machine) : Still m (m.rehearse i).1 := by
  cases i with
  | read => exact ⟨⟨m.tape.size_cells_store 0, rfl, rfl⟩, rfl, rfl⟩
  | write => exact .refl m
  | _ => exact still_adjust _ m

/-- Lines of text, all of them or those before one that is refused. -/
theorem still_sendLines (lines : List String) (m : Machine) : Still m (m.sendLines lines).1 := by
  induction lines generalizing m with
  | nil => exact .refl m
  | cons line rest ih =>
    rw [sendLines]
    have hline := still_sendBy (Output.writeLine line) m
    split
    · rename_i m' h
      rw [h] at hline
      exact hline.trans (ih m')
    · rename_i m' _ h
      rw [h] at hline
      exact hline

theorem still_begin (job : Job) (m : Machine) : Still m (m.begin job).1 := by
  rw [begin]
  split
  · exact .refl m
  · exact still_sendLines _ m

/-! ## Steps -/

theorem conclude_next {flow : Flow} {r : Machine × Option Trouble}
    (h : conclude job flow r = .next m') :
    r.2 = none ∧ m' = { r.1 with pc := flow.counter r.1.pc, steps := r.1.steps + 1 } := by
  obtain ⟨m, _ | trouble⟩ := r <;> cases h
  exact ⟨rfl, rfl⟩

theorem conclude_stop {flow : Flow} {r : Machine × Option Trouble}
    (h : conclude job flow r = .stop ending m') :
    m' = r.1 ∧ ∃ trouble : Trouble, r.2 = some trouble ∧
      ending = .failed (trouble.failure (job.site r.1.pc)) := by
  obtain ⟨m, _ | trouble⟩ := r <;> cases h
  exact ⟨rfl, trouble, rfl, rfl⟩

/-- A step that has a way to go on is concluded from a machine that stands still. Apart from that way
the program has no part in what the machine is then. -/
theorem steps_eq_conclude {job' : Job} {flow : Flow} (hmode : job'.mode = job.mode)
    (hf : job.flow? m.pc m.tape.cell i = some flow)
    (hf' : job'.flow? m.pc m.tape.cell i = some flow) :
    ∃ r, Still m r.1 ∧ m.step job i = conclude job flow r ∧
      m.step job' i = conclude job' flow r := by
  simp only [step, hf, hf', hmode]
  cases job.mode with
  | live => exact ⟨_, still_perform i m, rfl, rfl⟩
  | table =>
    have hstill := still_rehearse i m
    cases hr : m.rehearse i with
    | mk m' trouble =>
      rw [hr] at hstill
      cases trouble with
      | none => exact ⟨_, hstill.trans (still_sendBy _ m'), rfl, rfl⟩
      | some trouble => exact ⟨_, hstill, rfl, rfl⟩

theorem step_eq_conclude {flow : Flow} (hf : job.flow? m.pc m.tape.cell i = some flow) :
    ∃ r, Still m r.1 ∧ m.step job i = conclude job flow r := by
  obtain ⟨r, hstill, hstep, _⟩ := steps_eq_conclude rfl hf hf
  exact ⟨r, hstill, hstep⟩

/-- A step that succeeds moves the counter and is counted. -/
theorem step_next (h : m.step job i = .next m') :
    Kin m m' ∧ m'.steps = m.steps + 1 ∧
      ∃ flow, job.flow? m.pc m.tape.cell i = some flow ∧ m'.pc = flow.counter m.pc := by
  cases hf : job.flow? m.pc m.tape.cell i with
  | none =>
    rw [step, hf] at h
    cases h
  | some flow =>
    obtain ⟨r, hstill, hstep⟩ := step_eq_conclude hf
    obtain ⟨_, rfl⟩ := conclude_next (hstep.symm.trans h)
    exact ⟨⟨hstill.capacity, hstill.policy, hstill.limit⟩,
      congrArg (· + 1) hstill.steps, flow, rfl, congrArg flow.counter hstill.pc⟩

/-- A step that fails moves nothing; it lacks a partner or reports trouble at the counter. -/
theorem step_stop (h : m.step job i = .stop ending m') :
    Still m m' ∧
      (ending = .broken .unpairedBracket ∧ job.flow? m.pc m.tape.cell i = none ∨
        ∃ trouble : Trouble, ending = .failed (trouble.failure (job.site m.pc))) := by
  cases hf : job.flow? m.pc m.tape.cell i with
  | none =>
    rw [step, hf] at h
    cases h
    exact ⟨.refl m, .inl ⟨rfl, rfl⟩⟩
  | some flow =>
    obtain ⟨r, hstill, hstep⟩ := step_eq_conclude hf
    obtain ⟨rfl, trouble, _, hending⟩ := conclude_stop (hstep.symm.trans h)
    rw [hstill.pc] at hending
    exact ⟨hstill, .inr ⟨trouble, hending⟩⟩

/-! ## Steps without a table -/

theorem step_live_next (hlive : job.mode = .live) (h : m.step job i = .next m') :
    ∃ flow m₁, job.flow? m.pc m.tape.cell i = some flow ∧ m.perform i = (m₁, none) ∧
      m' = { m₁ with pc := flow.counter m₁.pc, steps := m₁.steps + 1 } := by
  cases hf : job.flow? m.pc m.tape.cell i with
  | none =>
    rw [step, hf] at h
    cases h
  | some flow =>
    simp only [step, hf, hlive] at h
    obtain ⟨hnone, rfl⟩ := conclude_next h
    refine ⟨flow, (m.perform i).1, rfl, ?_, rfl⟩
    rw [← hnone]

theorem step_live_stop (hlive : job.mode = .live) (h : m.step job i = .stop ending m') :
    ending = .broken .unpairedBracket ∧ job.flow? m.pc m.tape.cell i = none ∨
      ∃ trouble : Trouble, ending = .failed (trouble.failure (job.site m.pc)) ∧
        m.perform i = (m', some trouble) := by
  cases hf : job.flow? m.pc m.tape.cell i with
  | none =>
    rw [step, hf] at h
    cases h
    exact .inl ⟨rfl, rfl⟩
  | some flow =>
    simp only [step, hf, hlive] at h
    obtain ⟨rfl, trouble, htrouble, hending⟩ := conclude_stop h
    rw [(still_perform i m).pc] at hending
    refine .inr ⟨trouble, hending, ?_⟩
    rw [← htrouble]

theorem tape_of_trouble {trouble : Trouble} (h : m.perform i = (m', some trouble)) :
    m'.tape = m.tape := by
  obtain ⟨tape, pc, steps, input, output, control⟩ := m
  cases i with
  | read =>
    simp only [perform, receive] at h
    split at h
    · cases h
    · cases h
      rfl
  | write =>
    have hsend := congrArg (·.1.tape) h
    exact hsend.symm
  | _ =>
    simp only [perform, adjust_eq_moved] at h
    generalize Instruction.onTape _ _ = r at h
    cases r with
    | ok t => cases h
    | error cause =>
      cases h
      rfl

end Machine

end TapeMachine
