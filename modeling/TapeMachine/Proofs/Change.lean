import TapeMachine.Proofs.Control

/-!
# TapeMachine.Proofs.Change

Changes of a machine that its instructions do not notice.

* `Machine.Change`  — a change of a machine part by part.
* `Tape.Commutes`   — an instruction does the same to the changed tape.
* `Change.Hidden`   — an instruction finds nothing of a change in what it looks at.
* `Hidden.perform`  — so it does the same to the changed machine.
* `Hidden.step`     — so does the whole step, if the change leaves the counter alone.
-/

namespace TapeMachine

def Step.map (f : Machine → Machine) : Step → Step
  | next m => .next (f m)
  | stop ending m => .stop ending (f m)

/-- The instruction does the same to the other tape as to this one, and nothing shows the exchange
to it. -/
structure Tape.Commutes (g : Tape → Tape) (i : Instruction) (t : Tape) : Prop where
  cell : (g t).cell = t.cell
  store : ∀ value, g (t.store value) = (g t).store value
  onTape : i.onTape (g t) = (i.onTape t).map g

theorem Tape.commutes_id (i : Instruction) (t : Tape) : Commutes id i t where
  cell := rfl
  store _ := rfl
  onTape := by
    rw [id]
    cases i.onTape t <;> rfl

namespace Machine

/-- A change of the parts of a machine, each of them by itself. -/
structure Change where
  tape : Tape → Tape := id
  pc : Nat → Nat := id
  steps : Nat → Nat := id
  input : Input → Input := id
  output : Output → Output := id
  control : Option Control → Option Control := id

def Change.apply (c : Change) (m : Machine) : Machine where
  tape := c.tape m.tape
  pc := c.pc m.pc
  steps := c.steps m.steps
  input := c.input m.input
  output := c.output m.output
  control := c.control m.control

/-- The instruction finds nothing of the change in what it looks at, and what it does to a part it
does to the changed part. -/
structure Change.Hidden (c : Change) (i : Instruction) (m : Machine) : Prop where
  tape : Tape.Commutes c.tape i m.tape
  answer : (c.input m.input).receive.answer = m.input.receive.answer
  unread : (c.input m.input).receive.unread = c.input m.input.receive.unread
  send : (c.output m.output).sendByte m.tape.cell =
    (c.output (m.output.sendByte m.tape.cell).1, (m.output.sendByte m.tape.cell).2)
  control : (c.control m.control).map (·.cancelIf ((c.apply m).prompts i)) =
    c.control (m.control.map (·.cancelIf (m.prompts i)))

variable {c : Change} {i : Instruction} {m : Machine} {job : Job}

/-- A change that leaves the counter alone leaves the place alone that a failure blames. -/
theorem conclude_change (hpc : ∀ ip, c.pc ip = ip) (hsteps : ∀ n, c.steps (n + 1) = c.steps n + 1)
    (flow : Flow) (r : Machine × Option Trouble) :
    conclude job flow (c.apply r.1, r.2) = (conclude job flow r).map c.apply := by
  obtain ⟨m, _ | trouble⟩ := r
  · simp only [conclude, Step.map, Change.apply, hpc, hsteps]
  · simp only [conclude, Step.map, Change.apply, hpc]

namespace Change.Hidden

variable (h : c.Hidden i m)

include h

theorem adjust : (c.apply m).adjust i = (c.apply (m.adjust i).1, (m.adjust i).2) := by
  have htape : i.onTape (c.apply m).tape = (i.onTape m.tape).map c.tape := h.tape.onTape
  rw [adjust_eq_moved, adjust_eq_moved, htape]
  cases i.onTape m.tape <;> rfl

theorem perform : (c.apply m).perform i = (c.apply (m.perform i).1, (m.perform i).2) := by
  cases i with
  | read =>
    obtain ⟨tape, pc, steps, input, output, control⟩ := m
    have hanswer := h.answer
    have hunread := h.unread
    have hcontrol := h.control
    simp only [Machine.perform, receive, Change.apply, prompts] at hanswer hunread hcontrol ⊢
    generalize (c.input input).receive = received' at hanswer hunread hcontrol ⊢
    obtain ⟨answer', unread', canceled'⟩ := received'
    obtain rfl := hanswer
    obtain rfl := hunread
    simp only [hcontrol]
    cases input.receive with
    | mk answer unread canceled =>
      cases answer with
      | ok byte => simp only [h.tape.store]
      | error text => rfl
  | write =>
    obtain ⟨tape, pc, steps, input, output, control⟩ := m
    have hsend := h.send
    have hcontrol := h.control
    have hcell := h.tape.cell
    simp only [Machine.perform, sendBy, Change.apply, prompts, hcell] at hsend hcontrol ⊢
    simp only [hsend] at hcontrol ⊢
    rw [hcontrol]
  | _ => exact h.adjust

theorem step (hlive : job.mode = .live) (hpc : ∀ ip, c.pc ip = ip)
    (hsteps : ∀ n, c.steps (n + 1) = c.steps n + 1) :
    (c.apply m).step job i = (m.step job i).map c.apply := by
  -- Where the counter goes is decided by the cell, which is the same.
  have hflow : job.flow? (c.apply m).pc (c.apply m).tape.cell i =
      job.flow? m.pc m.tape.cell i := by
    simp only [Change.apply, hpc, h.tape.cell]
  simp only [Machine.step, hflow, hlive, h.perform]
  cases job.flow? m.pc m.tape.cell i with
  | none => rfl
  | some flow => exact conclude_change hpc hsteps flow (m.perform i)

end Change.Hidden

end Machine

end TapeMachine
