import TapeMachine.Proofs.Change
import TapeMachine.Proofs.Course

/-!
# TapeMachine.Proofs.Undisturbed

A machine as it would be if nobody ever cancelled its work.

* `Input.calm`, `Output.calm`, `Machine.calm` — scripts without the moments at which somebody
  cancels.
* `Machine.undisturbed` — the calm machine under another control, with more steps behind it.
* `step_undisturbed`    — the same instruction does the same to it.
* `Proceeds.undisturbed` — it gets as far in one go as the machine gets while others set and clear
  the flag, provided that its own limit reaches so far.
* `Machine.Quiet`       — a machine that nobody cancels anyway; it stays quiet.
-/

namespace TapeMachine

/-- The input without the moments of a cancellation. -/
def Input.calm (input : Input) : Input := input.filter (· ≠ .cancel)

/-- The output that prompts no cancellation. -/
def Output.calm (o : Output) : Output := { o with cancelAt := none }

namespace Input

@[simp] theorem calm_cancel (rest : Input) : calm (.cancel :: rest) = calm rest := by
  simp [calm]

theorem calm_cons {event : Event} (h : event ≠ .cancel) (rest : Input) :
    calm (event :: rest) = event :: calm rest := by
  simp [calm, h]

theorem receive_calm (input : Input) :
    input.calm.receive = ⟨input.receive.answer, input.receive.unread.calm, false⟩ := by
  induction input with
  | nil => rfl
  | cons event rest ih =>
    cases event with
    | interrupted =>
      rw [calm_cons (by simp)]
      exact ih
    | cancel =>
      rw [calm_cancel]
      exact ih
    | _ =>
      rw [calm_cons (by simp)]
      rfl

theorem calm_eq_self {input : Input} (h : Event.cancel ∉ input) : input.calm = input := by
  rw [calm, List.filter_eq_self]
  intro event hevent
  have hne : event ≠ .cancel := by
    rintro rfl
    exact h hevent
  simpa using hne

theorem cancel_not_mem_calm (input : Input) : Event.cancel ∉ input.calm := by
  simp [calm]

end Input

namespace Output

@[simp] theorem cancels_calm (o : Output) : o.calm.cancels = false := rfl

theorem lapse_calm (o : Output) : o.calm.lapse = o.lapse.calm :=
  (apply_ite calm (o.lapsed < o.lapses.length) { o with lapsed := o.lapsed + 1 } o).symm

theorem write_calm (bytes : List UInt8) (o : Output) :
    o.calm.write bytes = ((o.write bytes).1.calm, (o.write bytes).2) := by
  have hbrink : o.calm.brink = o.brink := rfl
  have htaken : o.calm.taken = o.taken := rfl
  rw [write, write, hbrink]
  cases o.brink with
  | none => rfl
  | some brink =>
    simp only [htaken]
    split
    · exact congrArg (·, some brink.text) (lapse_calm (o.append _))
    · rfl

theorem sendByte_calm (byte : UInt8) (o : Output) :
    o.calm.sendByte byte = ((o.sendByte byte).1.calm, (o.sendByte byte).2) := by
  simp only [sendByte, write_calm]
  cases o.write [byte] with
  | mk o' refused => cases refused <;> rfl

end Output

namespace Machine

/-- The machine with scripts in which nobody cancels. -/
def calm (m : Machine) : Machine := { m with input := m.input.calm, output := m.output.calm }

/-- The machine as it would be if nobody ever cancelled its work: under another control, with
scripts in which nobody cancels, and with `before` more steps behind it. -/
def undisturbed (control : Option Control) (before : Nat) (m : Machine) : Machine :=
  { m.calm with steps := before + m.steps, control := control }

variable {job : Job} {i : Instruction} {m m' : Machine} {ending : Ending}
  {control : Option Control} {before n : Nat}

@[simp] theorem undisturbed_steps :
    (m.undisturbed control before).steps = before + m.steps := rfl

/-! ## Single steps -/

theorem hidden_undisturbed (control : Option Control) (before : Nat) (i : Instruction)
    (m : Machine) :
    Change.Hidden
      { steps := (before + ·)
        input := Input.calm
        output := Output.calm
        control := fun _ => control } i m where
  tape := Tape.commutes_id i m.tape
  answer := by simp only [Input.receive_calm]
  unread := by simp only [Input.receive_calm]
  send := Output.sendByte_calm m.tape.cell m.output
  control := by
    have hprompts : (m.undisturbed control before).prompts i = false := by
      cases i with
      | read => simp only [prompts, undisturbed, calm, Input.receive_calm]
      | write => simp only [prompts, undisturbed, calm, Output.sendByte_calm, Output.cancels_calm]
      | _ => rfl
    show control.map (·.cancelIf ((m.undisturbed control before).prompts i)) = control
    rw [hprompts, cancelIf_false]

/-- No instruction looks at the control, at the number of steps or for a cancellation. -/
theorem step_undisturbed (hlive : job.mode = .live) (i : Instruction) (m : Machine) :
    (m.undisturbed control before).step job i =
      (m.step job i).map (undisturbed control before) :=
  (hidden_undisturbed control before i m).step hlive (fun _ => rfl) fun _ => rfl

theorem advance_undisturbed (hlive : job.mode = .live)
    (hp : (m.undisturbed control before).Permitted) (hi : m.pending job = .ok i) :
    (m.undisturbed control before).advance job =
      (m.advance job).map (undisturbed control before) := by
  have hpending : (m.undisturbed control before).pending job = .ok i :=
    pending_of_permitted (pending_eq_ok_iff.1 hi).1 hp
  rw [advance_of_pending hpending, advance_of_pending hi, step_undisturbed hlive]

/-! ## Many steps -/

/-- A control without a flag that is set permits what its limit permits. -/
theorem permitted_undisturbed (hflag : control.any (·.canceled) = false)
    (hlimit : ∀ limit, control.bind (·.maxSteps) = some limit → before + m.steps < limit) :
    (m.undisturbed control before).Permitted :=
  ⟨hflag, hlimit⟩

theorem Proceeds.steps_le (h : Proceeds job m m') : m.steps ≤ m'.steps := by
  induction h with
  | refl => exact Nat.le_refl _
  | step hs _ ih =>
    have hone := steps_of_next hs
    omega
  | flag canceled _ ih => exact ih

/-- Wherever a machine gets while others set and clear the flag, it gets undisturbed. -/
theorem Proceeds.undisturbed (hlive : job.mode = .live) (hflag : control.any (·.canceled) = false)
    (h : Proceeds job m m')
    (hlimit : ∀ limit, control.bind (·.maxSteps) = some limit → before + m'.steps ≤ limit) :
    ∃ n, (m.undisturbed control before).after job n = some (m'.undisturbed control before) := by
  induction h with
  | refl m => exact ⟨0, rfl⟩
  | @step m m₁ m' hs hrest ih =>
    obtain ⟨n, hn⟩ := ih hlimit
    obtain ⟨i, hi, _⟩ := advance_next hs
    have hp : (m.undisturbed control before).Permitted := by
      refine permitted_undisturbed hflag fun limit hl => ?_
      have hle := hlimit limit hl
      have hone := steps_of_next hs
      have hmore := hrest.steps_le
      omega
    have hadvance := advance_undisturbed hlive hp hi
    rw [hs] at hadvance
    exact ⟨n + 1, (after_succ hadvance).trans hn⟩
  | flag canceled _ ih => exact ih hlimit

/-! ## Machines that nobody cancels -/

/-- Neither the scripts nor the control have to do with a cancellation. -/
structure Quiet (m : Machine) : Prop where
  input : Input.Event.cancel ∉ m.input
  output : m.output.cancelAt = none
  flag : m.canceled = false

theorem Quiet.undisturbed_eq (hq : m.Quiet) (control : Option Control) :
    m.undisturbed control 0 = m.under control := by
  obtain ⟨tape, pc, steps, input, output, control'⟩ := m
  obtain ⟨limit, refusal, failingFlush, cancelAt, taken, flushes, lapses, lapsed⟩ := output
  have hinput := Input.calm_eq_self hq.input
  have houtput := hq.output
  simp only at hinput houtput
  simp only [undisturbed, calm, under, hinput, houtput, Output.calm, Nat.zero_add]

/-- What an undisturbed machine does not differ from is quiet, and under the same control. -/
theorem quiet_of_undisturbed_eq (hflag : control.any (·.canceled) = false)
    (h : m.undisturbed control 0 = m) : m.Quiet ∧ m.control = control := by
  have hcontrol : m.control = control := (congrArg Machine.control h).symm
  refine ⟨⟨?_, ?_, ?_⟩, hcontrol⟩
  · have hinput : m.input.calm = m.input := congrArg Machine.input h
    rw [← hinput]
    exact Input.cancel_not_mem_calm _
  · have houtput : m.output.calm = m.output := congrArg Machine.output h
    rw [← houtput]
    rfl
  · rw [canceled, hcontrol]
    exact hflag

theorem Quiet.step_eq (hlive : job.mode = .live) (hq : m.Quiet) (i : Instruction) :
    (m.step job i).map (Machine.undisturbed m.control 0) = m.step job i := by
  rw [← step_undisturbed hlive, hq.undisturbed_eq]
  rfl

theorem Quiet.of_next (hlive : job.mode = .live) (hq : m.Quiet) (hs : m.advance job = .next m') :
    m'.Quiet ∧ m'.control = m.control := by
  obtain ⟨i, _, hstep⟩ := advance_next hs
  have hsame := hq.step_eq hlive i
  rw [hstep] at hsame
  exact quiet_of_undisturbed_eq hq.flag (Step.next.inj hsame)

theorem Quiet.of_stop (hlive : job.mode = .live) (hq : m.Quiet)
    (hs : m.advance job = .stop ending m') : m'.Quiet ∧ m'.control = m.control := by
  rcases advance_stop hs with ⟨_, rfl⟩ | ⟨i, _, hstep⟩
  · exact ⟨hq, rfl⟩
  · have hsame := hq.step_eq hlive i
    rw [hstep] at hsame
    exact quiet_of_undisturbed_eq hq.flag (Step.stop.inj hsame).2

theorem Quiet.of_after (hlive : job.mode = .live) (hq : m.Quiet) (h : m.after job n = some m') :
    m'.Quiet ∧ m'.control = m.control := by
  refine after_keeps (P := fun m' => m'.Quiet ∧ m'.control = m.control) ?_ ⟨hq, rfl⟩ h
  intro m₁ m₂ ⟨hq₁, hc₁⟩ hs
  obtain ⟨hq₂, hc₂⟩ := hq₁.of_next hlive hs
  exact ⟨hq₂, hc₂.trans hc₁⟩

end Machine

end TapeMachine
