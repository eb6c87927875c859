import TapeMachine.Proofs.Exchange

/-!
# TapeMachine.Proofs.Wrapping

A strict tape and a tape without ends are the same up to the first overrun.

* `Tape.wrapped`, `Machine.wrapped` — the tape without ends, and the machine on it.
* `Machine.unlimited`  — the machine without its step limit, which makes the same steps.
* `Machine.ComesIn`    — a number of steps, and then one that brings the pointer in from the other
  end.
* `runsTo_wrapped`     — the whole of it: evaluations are the same unless the strict one overruns,
  and then the other one comes in at that very step.
-/

namespace TapeMachine

namespace Tape

/-- The tape without ends. -/
def wrapped (t : Tape) : Tape := { t with policy := .wrap }

theorem unnoticed_wrapped : Unnoticed wrapped (fun _ => True) where
  cell _ := rfl
  store _ _ := rfl
  forward_ok {t _} hs h := by
    obtain ⟨hlt, rfl⟩ := forward_eq_ok_of_strict hs h
    have hlt' : t.wrapped.pointer + 1 < t.wrapped.cells.size := hlt
    exact forward_of_lt hlt'
  backward_ok hs h := by
    obtain ⟨hpos, rfl⟩ := backward_eq_ok_of_strict hs h
    exact backward_of_pos hpos
  overrun _ _ hc := absurd trivial hc

/-- An instruction that leads over an end brings the pointer in at the other one. -/
theorem onTape_wrapped {t : Tape} {i : Instruction} {cause : Overrun} (h : t.Exceeds i cause) :
    ∃ t', i.onTape t.wrapped = .ok t' ∧ t'.cells = t.cells ∧
      t'.pointer = cause.reentry t.capacity := by
  cases h with
  | pastLast h =>
    have hend : ¬t.wrapped.pointer + 1 < t.wrapped.cells.size := Nat.not_lt.2 (Nat.le_of_eq h.symm)
    exact ⟨_, dif_neg hend, rfl, rfl⟩
  | belowFirst h =>
    have hend : ¬0 < t.wrapped.pointer := Nat.not_lt.2 (Nat.le_of_eq h)
    exact ⟨_, if_neg hend, rfl, rfl⟩

end Tape

namespace Machine

/-- The machine on the tape without ends. -/
def wrapped (m : Machine) : Machine := m.exchanged Tape.wrapped

/-- The machine without its step limit. -/
def unlimited (m : Machine) : Machine := m.under (m.control.map ({ · with maxSteps := none }))

/-- After `k` steps the machine is `last`, and the next step brings the pointer to the given cell
without a change of the cells. -/
def ComesIn (job : Job) (k : Nat) (m last : Machine) (pointer : Nat) : Prop :=
  m.after job k = some last ∧ ∃ next, last.advance job = .next next ∧
    next.tape.cells = last.tape.cells ∧ next.tape.pointer = pointer

variable {job : Job} {m m' last : Machine} {ending : Ending} {n pointer : Nat}

/-! ## Without a step limit -/

theorem hidden_unlimited (i : Instruction) (m : Machine) :
    Change.Hidden { control := Option.map ({ · with maxSteps := none }) } i m where
  tape := Tape.commutes_id i m.tape
  answer := rfl
  unread := rfl
  send := rfl
  control := by cases m.control <;> rfl

theorem step_unlimited (hlive : job.mode = .live) (i : Instruction) (m : Machine) :
    m.unlimited.step job i = (m.step job i).map unlimited :=
  (hidden_unlimited i m).step hlive (fun _ => rfl) fun _ => rfl

theorem canceled_unlimited (m : Machine) : m.unlimited.canceled = m.canceled := by
  rw [canceled, canceled, unlimited, under]
  cases m.control <;> rfl

theorem limit?_unlimited (m : Machine) : m.unlimited.limit? = none := by
  rw [limit?, unlimited, under]
  cases m.control <;> rfl

theorem permitted_unlimited (h : m.Permitted) : m.unlimited.Permitted where
  flag := (canceled_unlimited m).trans h.flag
  limit limit hl := by
    rw [limit?_unlimited] at hl
    cases hl

theorem advance_unlimited (hlive : job.mode = .live) (h : m.advance job = .next m') :
    m.unlimited.advance job = .next m'.unlimited := by
  obtain ⟨i, hi, hstep⟩ := advance_next h
  obtain ⟨hi, hp⟩ := pending_eq_ok_iff.1 hi
  have hi' : m.unlimited.pending job = .ok i := pending_of_permitted hi (permitted_unlimited hp)
  rw [advance_of_pending hi', step_unlimited hlive, hstep]
  rfl

theorem after_unlimited (hlive : job.mode = .live) (h : m.after job n = some m') :
    m.unlimited.after job n = some m'.unlimited :=
  after_map (advance_unlimited hlive) h

theorem ComesIn.unlimited (hlive : job.mode = .live) (h : ComesIn job n m last pointer) :
    ComesIn job n m.unlimited last.unlimited pointer := by
  obtain ⟨hafter, next, hnext, hcells, hpointer⟩ := h
  exact ⟨after_unlimited hlive hafter, next.unlimited, advance_unlimited hlive hnext, hcells,
    hpointer⟩

/-! ## Without ends -/

theorem not_overrun_of_wrap (hlive : job.mode = .live) (hwrap : m.tape.policy = .wrap)
    (he : EndsAfter job n m ending m') (site : Site) (cause : Overrun) :
    ending ≠ .failed (.overrun site cause) := by
  rintro rfl
  obtain ⟨hafter, _, hstrict, _⟩ := exceeds_of_endsAfter hlive he
  rw [(kin_of_after hafter).policy, hwrap] at hstrict
  cases hstrict

/-- Where the strict tape is overrun, the machine without ends goes on. -/
theorem comesIn_of_overrun {site : Site} {cause : Overrun} (hlive : job.mode = .live)
    (hstrict : m.tape.policy = .strict)
    (he : EndsAfter job n m (.failed (.overrun site cause)) m') :
    ∃ i, site.ip = m'.pc ∧ job.program.instruction? site.ip = some i ∧ m'.tape.Exceeds i cause ∧
      ComesIn job n m.wrapped m'.wrapped (cause.reentry m'.tape.capacity) := by
  obtain ⟨hafter, hsite, _, i, hi, hexceeds⟩ := exceeds_of_endsAfter hlive he
  have hl := lockstep_exchanged Tape.unnoticed_wrapped hlive
  obtain ⟨_, hafter', _, rfl⟩ := hl.after ⟨hstrict, rfl⟩ hafter
  obtain ⟨t, ht, hcells, hpointer⟩ := Tape.onTape_wrapped hexceeds
  have hi' := (pending_eq_ok_iff.1 hi).1
  rw [← hsite] at hi'
  exact ⟨i, hsite, hi', hexceeds, hafter', _, advance_exchanged_of_exceeds hlive hi hexceeds ht,
    hcells, hpointer⟩

/-- Whether the tape has ends makes no difference to an evaluation that does not come to them: it
ends in the same way and leaves the same machine, or comes to no end. If the evaluation overruns the
strict tape, it does so with a `>` on the last cell or with a `<` on the first one. On the tape
without ends it has made the same steps before, and its next step brings the pointer in at the other
end, with the step limit and without it. That evaluation never overruns its tape. -/
theorem runsTo_wrapped {m : Machine} (hstrict : m.tape.policy = .strict) (program : Program)
    (jumps : JumpTable) (traced : Bool) :
    let job : Job := ⟨program, jumps, .live⟩
    (∀ ending final, m.RunsTo job traced ending final →
      (∀ site cause, ending ≠ .failed (.overrun site cause)) →
      m.wrapped.RunsTo job traced ending final.wrapped) ∧
    ((∀ site cause final, ¬m.RunsTo job traced (.failed (.overrun site cause)) final) →
      (m.wrapped.Endless job traced ↔ m.Endless job traced)) ∧
    (∀ site cause final, m.RunsTo job traced (.failed (.overrun site cause)) final →
      ∃ k i, final.steps = m.steps + k ∧ site.ip = final.pc ∧
        program.instruction? site.ip = some i ∧ final.tape.Exceeds i cause ∧
        ComesIn job k m.wrapped final.wrapped (cause.reentry final.tape.capacity) ∧
        ComesIn job k m.wrapped.unlimited final.wrapped.unlimited
          (cause.reentry final.tape.capacity)) ∧
    ∀ ending final, m.wrapped.RunsTo job traced ending final →
      ∀ site cause, ending ≠ .failed (.overrun site cause) := by
  intro job
  have hlive : job.mode = .live := rfl
  have hl := lockstep_exchanged Tape.unnoticed_wrapped hlive
  refine ⟨?_, ?_, ?_, ?_⟩
  · intro ending final hrun hspares
    obtain ⟨_, hrun', _, rfl⟩ := hl.runsTo rfl rfl ⟨hstrict, rfl⟩ hrun
      fun site cause h _ => hspares site cause h
    exact hrun'
  · intro hspares
    refine hl.endless_iff rfl rfl ⟨hstrict, rfl⟩ fun ending final hrun site cause h _ => ?_
    rw [h] at hrun
    exact hspares site cause final hrun
  · intro site cause final hrun
    obtain ⟨k, he⟩ := (runsTo_iff rfl).1 hrun
    obtain ⟨i, hsite, hi, hexceeds, hcomes⟩ := comesIn_of_overrun rfl hstrict he
    exact ⟨k, i, he.steps, hsite, hi, hexceeds, hcomes, hcomes.unlimited rfl⟩
  · intro ending final hrun
    obtain ⟨k, he⟩ := (runsTo_iff rfl).1 hrun
    exact not_overrun_of_wrap rfl rfl he

/-- On a single cell both ends are the same: `+[>]` overruns it inside of the loop after two steps,
and without ends the third step leaves the pointer where it is. -/
theorem runsTo_wrapped_single :
    let program : Program :=
      ⟨#[⟨.increment, 0⟩, ⟨.loopOpen, 1⟩, ⟨.moveRight, 2⟩, ⟨.loopClose, 3⟩]⟩
    let job : Job := ⟨program, ⟨#[none, some 3, none, some 1], 1⟩, .live⟩
    let m : Machine := ⟨Tape.new 1 .strict, 0, 0, [], {}, some { maxSteps := some 3 }⟩
    let final : Machine :=
      ⟨(Tape.new 1 .strict).store 1, 2, 2, [], {}, some { maxSteps := some 3 }⟩
    m.tape.policy = .strict ∧
      m.RunsTo job false (.failed (.overrun ⟨2, 2⟩ (.pastLast 0))) final ∧
      final.tape.Exceeds .moveRight (.pastLast 0) ∧
      ComesIn job 2 m.wrapped.unlimited final.wrapped.unlimited 0 := by
  intro program job m final
  have hrun : m.RunsTo job false (.failed (.overrun ⟨2, 2⟩ (.pastLast 0))) final :=
    ⟨4, #[], by cbv⟩
  obtain ⟨k, i, hsteps, _, hi, hexceeds, _, hcomes⟩ :=
    (runsTo_wrapped rfl program job.jumps false).2.2.1 _ _ _ hrun
  have hzero : m.steps = 0 := rfl
  have htwo : final.steps = 2 := rfl
  obtain rfl : k = 2 := by omega
  cases hi
  exact ⟨rfl, hrun, hexceeds, hcomes⟩

end Machine

end TapeMachine
