import TapeMachine.Proofs.Blame
import TapeMachine.Proofs.Lockstep
import TapeMachine.Proofs.Undisturbed

/-!
# TapeMachine.Proofs.Exchange

The same machine with another tape in the place of its own.

* `Machine.exchanged`  — the machine with the other tape. `step_exchanged` says that it makes the
  same step, if the exchange commutes with the instruction.
* `Tape.Unnoticed`     — an exchange that no instruction notices on a strict tape. It may make an
  exception for some overruns: the other tape need not fail then.
* `advance_exchanged_of_exceeds` — at an end that the other tape does not have, the machine goes on.
* `lockstep_exchanged` — so the two go in lockstep, up to an overrun that is excepted.
-/

namespace TapeMachine

namespace Tape

theorem forward_of_lt {t : Tape} (h : t.pointer + 1 < t.cells.size) :
    t.forward = .ok { t with pointer := t.pointer + 1, pointer_lt := h } := dif_pos h

theorem backward_of_pos {t : Tape} (h : 0 < t.pointer) :
    t.backward = .ok { t with
      pointer := t.pointer - 1
      pointer_lt := Nat.lt_of_le_of_lt (Nat.sub_le _ _) t.pointer_lt } := if_pos h

theorem forward_eq_ok_of_strict {t t' : Tape} (hs : t.policy = .strict)
    (h : t.forward = .ok t') :
    ∃ hlt, t' = { t with pointer := t.pointer + 1, pointer_lt := hlt } := by
  unfold forward at h
  split at h
  · rename_i hlt
    cases h
    exact ⟨hlt, rfl⟩
  · rw [hs] at h
    cases h

theorem backward_eq_ok_of_strict {t t' : Tape} (hs : t.policy = .strict)
    (h : t.backward = .ok t') :
    0 < t.pointer ∧ t' = { t with
      pointer := t.pointer - 1
      pointer_lt := Nat.lt_of_le_of_lt (Nat.sub_le _ _) t.pointer_lt } := by
  unfold backward at h
  split at h
  · rename_i hpos
    cases h
    exact ⟨hpos, rfl⟩
  · rw [hs] at h
    cases h

/-- A change of tapes that the instructions do not notice while the tape is strict, unless they
overrun it in a way that is excepted. -/
structure Unnoticed (g : Tape → Tape) (excepted : Overrun → Prop) : Prop where
  cell : ∀ t, (g t).cell = t.cell
  store : ∀ t value, g (t.store value) = (g t).store value
  forward_ok : ∀ {t t' : Tape}, t.policy = .strict → t.forward = .ok t' →
    (g t).forward = .ok (g t')
  backward_ok : ∀ {t t' : Tape}, t.policy = .strict → t.backward = .ok t' →
    (g t).backward = .ok (g t')
  overrun : ∀ {t : Tape} {i : Instruction} {cause : Overrun}, t.policy = .strict →
    t.Exceeds i cause → ¬excepted cause → i.onTape (g t) = .error cause

namespace Unnoticed

variable {g : Tape → Tape} {excepted : Overrun → Prop} (hg : Unnoticed g excepted) {t t' : Tape}
  {i : Instruction} {cause : Overrun}

include hg

theorem onTape_ok (hs : t.policy = .strict) (h : i.onTape t = .ok t') :
    i.onTape (g t) = .ok (g t') := by
  cases i with
  | increment =>
    cases h
    simp only [Instruction.onTape, increment, hg.store, hg.cell]
  | decrement =>
    cases h
    simp only [Instruction.onTape, decrement, hg.store, hg.cell]
  | moveRight => exact hg.forward_ok hs h
  | moveLeft => exact hg.backward_ok hs h
  | _ =>
    cases h
    rfl

theorem onTape_error (h : i.onTape t = .error cause) (hc : ¬excepted cause) :
    i.onTape (g t) = .error cause := by
  obtain ⟨hs, hexceeds⟩ := onTape_eq_error_iff.1 h
  exact hg.overrun hs hexceeds hc

theorem commutes (hs : t.policy = .strict)
    (hc : ∀ cause, i.onTape t = .error cause → ¬excepted cause) : Commutes g i t where
  cell := hg.cell t
  store := hg.store t
  onTape := by
    cases hr : i.onTape t with
    | ok t' => exact hg.onTape_ok hs hr
    | error cause => exact hg.onTape_error hr (hc cause hr)

end Unnoticed

end Tape

/-- The evaluation does not end with an overrun of a kind that is excepted. -/
def Ending.Spares (excepted : Overrun → Prop) (ending : Ending) : Prop :=
  ∀ site cause, ending = .failed (.overrun site cause) → ¬excepted cause

namespace Machine

/-- The machine with another tape. -/
def exchanged (g : Tape → Tape) (m : Machine) : Machine := { m with tape := g m.tape }

variable {job : Job} {g : Tape → Tape} {excepted : Overrun → Prop}
  {m : Machine} {i : Instruction}

theorem hidden_exchanged (h : Tape.Commutes g i m.tape) : Change.Hidden { tape := g } i m where
  tape := h
  answer := rfl
  unread := rfl
  send := rfl
  control := by
    have hprompts : (m.exchanged g).prompts i = m.prompts i := by
      cases i with
      | write => simp only [prompts, exchanged, h.cell]
      | _ => rfl
    exact congrArg (fun now => m.control.map (·.cancelIf now)) hprompts

theorem step_exchanged (h : Tape.Commutes g i m.tape) (hlive : job.mode = .live) :
    (m.exchanged g).step job i = (m.step job i).map (exchanged g) :=
  (hidden_exchanged h).step hlive (fun _ => rfl) fun _ => rfl

/-- A move that overruns the tape fails. -/
theorem step_of_overrun {cause : Overrun} (hlive : job.mode = .live)
    (h : i.onTape m.tape = .error cause) :
    m.step job i = .stop (.failed (.overrun (job.site m.pc) cause)) m := by
  obtain ⟨_, hexceeds⟩ := Tape.onTape_eq_error_iff.1 h
  have hadjust : m.adjust i = (m, some (.overrun cause)) := by
    rw [adjust_eq_moved, h]
    rfl
  cases hexceeds with
  | pastLast _ | belowFirst _ =>
    simp only [step, hlive, Job.flow?, perform, hadjust]
    rfl

/-- Where the instruction leads over an end of the one tape but not of the other, the machine with
the other one makes the step. -/
theorem advance_exchanged_of_exceeds {cause : Overrun} {t : Tape} (hlive : job.mode = .live)
    (hi : m.pending job = .ok i) (h : m.tape.Exceeds i cause)
    (ht : i.onTape (g m.tape) = .ok t) :
    (m.exchanged g).advance job =
      .next { m.exchanged g with tape := t, pc := m.pc + 1, steps := m.steps + 1 } := by
  have hi' : (m.exchanged g).pending job = .ok i := hi
  have hadjust : (m.exchanged g).adjust i = ({ m.exchanged g with tape := t }, none) := by
    rw [adjust_eq_moved]
    exact congrArg (moved _) ht
  have hperform : (m.exchanged g).perform i = ({ m.exchanged g with tape := t }, none) := by
    cases h <;> exact hadjust
  have hflow : ∀ ip cell, job.flow? ip cell i = some .onward := by
    intro ip cell
    cases h <;> rfl
  rw [advance_of_pending hi']
  simp only [step, hflow, hlive, hperform]
  rfl

/-- The two machines go in lockstep, unless a step overruns the strict tape in a way that is
excepted. -/
theorem lockstep_exchanged (hg : Tape.Unnoticed g excepted) (hlive : job.mode = .live) :
    Lockstep job job (Ending.Spares excepted)
      (fun m m' => m.tape.policy = .strict ∧ m' = m.exchanged g) where
  pending := by
    rintro m _ ⟨_, rfl⟩
    rfl
  next := by
    rintro m _ m₁ i ⟨hs, rfl⟩ hstep
    have hstrict : m₁.tape.policy = .strict := (step_next hstep).1.policy.trans hs
    have hcommutes : Tape.Commutes g i m.tape := by
      refine hg.commutes hs fun cause herror => ?_
      cases hstep.symm.trans (step_of_overrun hlive herror)
    refine ⟨m₁.exchanged g, ?_, hstrict, rfl⟩
    rw [step_exchanged hcommutes hlive, hstep]
    rfl
  stop := by
    rintro m _ m₁ i ending ⟨hs, rfl⟩ hstep hc
    have hstrict : m₁.tape.policy = .strict := (step_stop hstep).1.policy.trans hs
    have hcommutes : Tape.Commutes g i m.tape := by
      refine hg.commutes hs fun cause herror => ?_
      cases hstep.symm.trans (step_of_overrun hlive herror)
      exact hc _ _ rfl
    refine ⟨m₁.exchanged g, ?_, hstrict, rfl⟩
    rw [step_exchanged hcommutes hlive, hstep]
    rfl

end Machine

end TapeMachine
