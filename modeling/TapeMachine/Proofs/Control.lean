import TapeMachine.Proofs.Frame

/-!
# TapeMachine.Proofs.Control

What a control has to do with the work of a machine: it decides whether another step is made, and
apart from that no step looks at it.

* `Machine.Permitted` — the control has nothing against another step; `pending_eq_ok_iff` and
  `pending_eq_error` say what is pending, and in which order the reasons for an end count.
* `Machine.prompts`   — carrying out an instruction makes somebody set the flag, which happens in
  a read or in a write. `perform_control` says that this is all that becomes of a control.
-/

namespace TapeMachine

namespace Machine

/-- The limit on the number of steps, if the machine stands under one. -/
def limit? (m : Machine) : Option Nat := m.control.bind (·.maxSteps)

/-- Whether the flag is set. -/
def canceled (m : Machine) : Bool := m.control.any (·.canceled)

/-- The machine under another control. -/
def under (control : Option Control) (m : Machine) : Machine := { m with control := control }

/-- The control lets the machine make another step. -/
structure Permitted (m : Machine) : Prop where
  flag : m.canceled = false
  limit : ∀ limit, m.limit? = some limit → m.steps < limit

variable {job : Job} {i : Instruction} {m m' : Machine} {ending : Ending}

/-! ## What is pending -/

theorem pending_eq (job : Job) (m : Machine) :
    m.pending job =
      match job.program.instruction? m.pc with
      | none => .error .finished
      | some i =>
        if m.canceled then .error (.failed .canceled)
        else match m.limit? with
          | none => .ok i
          | some limit => if limit ≤ m.steps then .error (.failed (.stepLimit limit)) else .ok i := by
  rw [pending, canceled, limit?]
  cases m.control <;> rfl

theorem pending_of_end (hend : job.program.instruction? m.pc = none) :
    m.pending job = .error .finished := by
  rw [pending_eq, hend]

theorem pending_of_canceled (hi : job.program.instruction? m.pc = some i)
    (hc : m.canceled = true) : m.pending job = .error (.failed .canceled) := by
  simp only [pending_eq, hi, hc, if_true]

theorem pending_of_limit {limit : Nat} (hi : job.program.instruction? m.pc = some i)
    (hc : m.canceled = false) (hl : m.limit? = some limit) (hle : limit ≤ m.steps) :
    m.pending job = .error (.failed (.stepLimit limit)) := by
  simp [pending_eq, hi, hc, hl, hle]

theorem pending_of_permitted (hi : job.program.instruction? m.pc = some i) (hp : m.Permitted) :
    m.pending job = .ok i := by
  rw [pending_eq, hi]
  simp only [hp.flag]
  cases hl : m.limit? with
  | none => rfl
  | some limit =>
    have hlt := hp.limit limit hl
    simp [Nat.not_le.2 hlt]

theorem permitted_of_free (h : m.control = none) : m.Permitted := by
  constructor
  · rw [canceled, h]
    rfl
  · intro limit hl
    rw [limit?, h] at hl
    cases hl

/-- An instruction is pending where the program has one and the control permits it. -/
theorem pending_eq_ok_iff :
    m.pending job = .ok i ↔ job.program.instruction? m.pc = some i ∧ m.Permitted := by
  constructor
  · intro h
    rw [pending_eq] at h
    split at h
    · cases h
    · rename_i hi
      split at h
      · cases h
      · rename_i hc
        have hflag : m.canceled = false := by simpa using hc
        split at h
        · rename_i hl
          cases h
          refine ⟨hi, hflag, fun limit hl' => ?_⟩
          rw [hl] at hl'
          cases hl'
        · rename_i limit hl
          split at h
          · cases h
          · rename_i hlt
            cases h
            refine ⟨hi, hflag, fun limit' hl' => ?_⟩
            rw [hl] at hl'
            cases hl'
            exact Nat.not_le.1 hlt
  · rintro ⟨hi, hp⟩
    exact pending_of_permitted hi hp

/-- What ends an evaluation before a step: the end of the program, or else the flag, or else the
limit. -/
theorem pending_eq_error (h : m.pending job = .error ending) :
    ending = .finished ∧ job.program.instruction? m.pc = none ∨
      (∃ i, job.program.instruction? m.pc = some i) ∧
        (ending = .failed .canceled ∧ m.canceled = true ∨
          ∃ limit, ending = .failed (.stepLimit limit) ∧ m.limit? = some limit ∧
            limit ≤ m.steps) := by
  rw [pending_eq] at h
  split at h
  · rename_i hend
    cases h
    exact .inl ⟨rfl, hend⟩
  · rename_i i hi
    refine .inr ⟨⟨i, hi⟩, ?_⟩
    split at h
    · rename_i hc
      cases h
      exact .inl ⟨rfl, hc⟩
    · split at h
      · cases h
      · rename_i limit hl
        split at h
        · rename_i hle
          cases h
          exact .inr ⟨limit, rfl, hl, hle⟩
        · cases h

/-! ## What becomes of a control -/

/-- Carrying out `i` makes somebody set the flag: a read that comes past a cancellation, or a write
after which enough is written for that. -/
def prompts (i : Instruction) (m : Machine) : Bool :=
  match i with
  | .read => m.input.receive.canceled
  | .write => (m.output.sendByte m.tape.cell).1.cancels
  | _ => false

theorem cancelIf_false (control : Option Control) :
    control.map (·.cancelIf false) = control := by
  cases control with
  | none => rfl
  | some control => simp [Control.cancelIf]

theorem adjust_control (i : Instruction) (m : Machine) : (m.adjust i).1.control = m.control := by
  rw [adjust_eq_moved]
  cases i.onTape m.tape <;> rfl

/-- An instruction sets the flag or leaves the control as it is. -/
theorem perform_control (i : Instruction) (m : Machine) :
    (m.perform i).1.control = m.control.map (·.cancelIf (m.prompts i)) := by
  obtain ⟨tape, pc, steps, input, output, control⟩ := m
  cases i with
  | read =>
    simp only [perform, receive, prompts]
    cases input.receive with
    | mk answer unread canceled => cases answer <;> rfl
  | write => rfl
  | _ =>
    simp only [prompts, cancelIf_false]
    exact adjust_control _ _

theorem limit?_eq_join (m : Machine) : m.limit? = (m.control.map (·.maxSteps)).join := by
  rw [limit?]
  cases m.control <;> rfl

theorem Kin.limit?_eq (h : Kin m m') : m'.limit? = m.limit? := by
  rw [limit?_eq_join, limit?_eq_join, h.limit]

theorem canceled_perform (i : Instruction) (m : Machine) :
    (m.perform i).1.canceled = (m.canceled || m.control.isSome && m.prompts i) := by
  rw [canceled, perform_control, canceled]
  cases m.control <;> rfl

end Machine

end TapeMachine
