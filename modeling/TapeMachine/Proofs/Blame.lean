import TapeMachine.Proofs.Course

/-!
# TapeMachine.Proofs.Blame

Which instruction can be blamed for which trouble.

* `Tape.Exceeds`          — an instruction that leads over an end of the tape. Only strict tapes
  fail then, `onTape_eq_error_iff`.
* `Overrun.reentry`       — where a tape without ends comes back in instead.
* `Instruction.Transfers` — the instructions that read or write.
* `Trouble.Blames`        — trouble comes from a move over an end or from a transfer that fails,
  `blames_of_perform`.
* `Machine.blamed_of_stop`, `exceeds_of_endsAfter` — so does every failure that blames a character.
-/

namespace TapeMachine

namespace Tape

/-- The instruction leads over an end of the tape. -/
inductive Exceeds (t : Tape) : Instruction → Overrun → Prop where
  | pastLast (h : t.pointer + 1 = t.capacity) : Exceeds t .moveRight (.pastLast t.pointer)
  | belowFirst (h : t.pointer = 0) : Exceeds t .moveLeft .belowFirst

variable {t : Tape} {cause : Overrun} {i : Instruction}

theorem forward_eq_error_iff :
    t.forward = .error cause ↔
      t.policy = .strict ∧ t.pointer + 1 = t.capacity ∧ cause = .pastLast t.pointer := by
  have hlt := t.pointer_lt
  unfold forward capacity
  split
  · have hne : t.pointer + 1 ≠ t.cells.size := by omega
    simp [hne]
  · have heq : t.pointer + 1 = t.cells.size := by omega
    cases t.policy <;> simp [heq, eq_comm]

theorem backward_eq_error_iff :
    t.backward = .error cause ↔ t.policy = .strict ∧ t.pointer = 0 ∧ cause = .belowFirst := by
  unfold backward
  split
  · have hne : t.pointer ≠ 0 := by omega
    simp [hne]
  · have heq : t.pointer = 0 := by omega
    cases t.policy <;> simp [heq, eq_comm]

/-- The one way in which an instruction that has to do with the tape alone can fail. -/
theorem onTape_eq_error_iff :
    i.onTape t = .error cause ↔ t.policy = .strict ∧ t.Exceeds i cause := by
  constructor
  · intro h
    cases i with
    | moveRight =>
      obtain ⟨hpolicy, hend, rfl⟩ := forward_eq_error_iff.1 h
      exact ⟨hpolicy, .pastLast hend⟩
    | moveLeft =>
      obtain ⟨hpolicy, hend, rfl⟩ := backward_eq_error_iff.1 h
      exact ⟨hpolicy, .belowFirst hend⟩
    | _ => cases h
  · rintro ⟨hpolicy, h⟩
    cases h with
    | pastLast h => exact forward_eq_error_iff.2 ⟨hpolicy, h, rfl⟩
    | belowFirst h => exact backward_eq_error_iff.2 ⟨hpolicy, h, rfl⟩

end Tape

/-- Where a tape without ends comes back in. -/
def Overrun.reentry (capacity : Nat) : Overrun → Nat
  | pastLast _ => 0
  | belowFirst => capacity - 1

/-- The instruction reads or writes a byte. -/
def Instruction.Transfers (i : Instruction) : Prop := i = .read ∨ i = .write

/-- The trouble can come from the instruction, carried out on the tape. -/
inductive Trouble.Blames (t : Tape) (i : Instruction) : Trouble → Prop where
  | overrun {cause : Overrun} (hs : t.policy = .strict) (h : t.Exceeds i cause) :
      Blames t i (.overrun cause)
  | io {text : String} (h : i.Transfers) : Blames t i (.io text)

namespace Machine

variable {job : Job} {m m' : Machine} {i : Instruction} {n : Nat}

theorem blames_of_adjust {trouble : Trouble} (h : m.adjust i = (m', some trouble)) :
    trouble.Blames m.tape i := by
  rw [adjust_eq_moved] at h
  cases hr : i.onTape m.tape with
  | ok t =>
    rw [hr] at h
    cases h
  | error cause =>
    rw [hr] at h
    cases h
    obtain ⟨hs, hexceeds⟩ := Tape.onTape_eq_error_iff.1 hr
    exact .overrun hs hexceeds

theorem blames_of_perform {trouble : Trouble} (h : m.perform i = (m', some trouble)) :
    trouble.Blames m.tape i := by
  cases i with
  | read =>
    obtain ⟨tape, pc, steps, input, output, control⟩ := m
    simp only [perform, receive] at h
    split at h
    · cases h
    · cases h
      exact .io (.inl rfl)
  | write =>
    have htrouble := congrArg Prod.snd h
    obtain ⟨text, _, rfl⟩ := Option.map_eq_some_iff.1 htrouble
    exact .io (.inr rfl)
  | _ => exact blames_of_adjust (by simpa only [perform] using h)

theorem eq_of_overrun {cause : Overrun} (h : m.perform i = (m', some (.overrun cause))) :
    m' = m := by
  have hb := blames_of_perform h
  cases hb with
  | overrun _ hexceeds =>
    cases hexceeds with
    | pastLast _ | belowFirst _ =>
      simp only [perform, adjust_eq_moved] at h
      generalize Instruction.onTape _ _ = r at h
      cases r <;> cases h
      rfl

theorem blamed_of_stop {cause : Failure} {offset : Nat} (hlive : job.mode = .live)
    (h : m.advance job = .stop (.failed cause) m') (hoffset : cause.offset? = some offset) :
    ∃ i trouble, m.pending job = .ok i ∧ m.perform i = (m', some trouble) ∧
      cause = trouble.failure (job.site m.pc) ∧ trouble.Blames m.tape i := by
  rcases advance_stop h with ⟨hp, _⟩ | ⟨i, hi, hstep⟩
  · -- The flag and the limit blame nothing.
    rcases pending_eq_error hp with ⟨hending, _⟩ | ⟨_, ⟨hending, _⟩ | ⟨limit, hending, _⟩⟩ <;>
      cases hending <;> cases hoffset
  · rcases step_live_stop hlive hstep with ⟨hending, _⟩ | ⟨trouble, hending, hperform⟩
    · cases hending
    · cases hending
      exact ⟨i, trouble, hi, hperform, rfl, blames_of_perform hperform⟩

/-- What an overrun leaves is the machine after the last step that succeeded, with the instruction
that leads over an end. -/
theorem exceeds_of_endsAfter {site : Site} {cause : Overrun} (hlive : job.mode = .live)
    (he : EndsAfter job n m (.failed (.overrun site cause)) m') :
    m.after job n = some m' ∧ site.ip = m'.pc ∧ m'.tape.policy = .strict ∧
      ∃ i, m'.pending job = .ok i ∧ m'.tape.Exceeds i cause := by
  obtain ⟨last, hlast, hstop⟩ := he
  obtain ⟨i, trouble, hi, hperform, hcause, hblames⟩ := blamed_of_stop hlive hstop rfl
  cases hblames with
  | io _ => cases hcause
  | overrun hstrict hexceeds =>
    cases hcause
    obtain rfl := eq_of_overrun hperform
    exact ⟨hlast, rfl, hstrict, i, hi, hexceeds⟩

end Machine

end TapeMachine
