import TapeMachine.Proofs.Evaluation
import TapeMachine.Proofs.Exchange

/-!
# TapeMachine.Proofs.Widening

More tape never changes an evaluation that fits.

* `Tape.widened`, `Machine.widened`, `Interpreter.widened` — the same with more cells of zero behind
  the last one.
* `Tape.unnoticed_widened`  — only a move past the last cell shows how many cells there are.
* `evaluatesTo_widened`     — the whole of it, for fresh interpreters: an evaluation that ends
  otherwise than past the last cell ends in the same way on any larger tape, and one that ends there
  goes on.
-/

namespace TapeMachine

namespace Tape

/-- The tape with more cells behind the last one, all of them zero. -/
def widened (extra : Nat) (t : Tape) : Tape where
  cells := t.cells ++ Array.replicate extra 0
  pointer := t.pointer
  policy := t.policy
  pointer_lt := by
    have hlt := t.pointer_lt
    rw [Array.size_append]
    omega

theorem size_cells_widened (extra : Nat) (t : Tape) :
    (t.widened extra).cells.size = t.cells.size + extra := by
  simp [widened]

theorem new_widened {capacity capacity' : Nat} (hpos : 1 ≤ capacity) (hle : capacity ≤ capacity')
    (policy : Policy) :
    new capacity' policy = (new capacity policy).widened (capacity' - capacity) := by
  have hcells : Array.replicate (max capacity' 1) (0 : UInt8) =
      Array.replicate (max capacity 1) 0 ++ Array.replicate (capacity' - capacity) 0 := by
    rw [Array.replicate_append_replicate]
    congr 1
    omega
  simp only [new, widened, hcells]

theorem forward_widened {extra : Nat} {t : Tape} (hend : t.pointer + 1 = t.capacity)
    (hextra : 0 < extra) :
    ∃ t', (t.widened extra).forward = .ok t' ∧ t'.cells = (t.widened extra).cells ∧
      t'.pointer = t.capacity := by
  have hlt : (t.widened extra).pointer + 1 < (t.widened extra).cells.size := by
    rw [size_cells_widened]
    show t.pointer + 1 < t.capacity + extra
    omega
  exact ⟨_, forward_of_lt hlt, rfl, hend⟩

/-- Nothing but a move past the last cell shows how many cells there are. -/
theorem unnoticed_widened (extra : Nat) :
    Unnoticed (widened extra) (fun cause => ∃ pointer, cause = .pastLast pointer) where
  cell t := Array.getElem_append_left t.pointer_lt
  store t value := by
    have hcells :
        (t.cells ++ Array.replicate extra 0).set t.pointer value (t.widened extra).pointer_lt =
          t.cells.set t.pointer value t.pointer_lt ++ Array.replicate extra 0 :=
      Array.set_append_left t.pointer_lt
    simp only [store, widened, hcells]
  forward_ok {t t'} hs h := by
    obtain ⟨hlt, rfl⟩ := forward_eq_ok_of_strict hs h
    have hlt' : t.pointer + 1 < (t.widened extra).cells.size := by
      rw [size_cells_widened]
      exact Nat.lt_add_right extra hlt
    exact forward_of_lt hlt'
  backward_ok hs h := by
    obtain ⟨hpos, rfl⟩ := backward_eq_ok_of_strict hs h
    exact backward_of_pos hpos
  overrun := by
    intro t i cause hs h hc
    cases h with
    | pastLast _ => exact absurd ⟨_, rfl⟩ hc
    | belowFirst h => exact backward_eq_error_iff.2 ⟨hs, h, rfl⟩

end Tape

namespace Machine

/-- The machine on the tape with more cells. -/
def widened (extra : Nat) (m : Machine) : Machine := m.exchanged (Tape.widened extra)

variable {job : Job} {m m' last : Machine} {extra k : Nat}

theorem lockstep_widened (extra : Nat) (hlive : job.mode = .live) :
    Lockstep job job (Ending.Spares fun cause => ∃ pointer, cause = .pastLast pointer)
      (fun m m' => m.tape.policy = .strict ∧ m' = m.widened extra) :=
  lockstep_exchanged (Tape.unnoticed_widened extra) hlive

theorem after_widened (hlive : job.mode = .live) (hstrict : m.tape.policy = .strict)
    (h : m.after job k = some m') :
    (m.widened extra).after job k = some (m'.widened extra) := by
  obtain ⟨_, hafter, _, rfl⟩ := (lockstep_widened extra hlive).after ⟨hstrict, rfl⟩ h
  exact hafter

theorem advance_widened_of_pastLast {site : Site} {pointer : Nat} (hlive : job.mode = .live)
    (hextra : 0 < extra)
    (he : EndsAfter job k m (.failed (.overrun site (.pastLast pointer))) last) :
    m.after job k = some last ∧ ∃ next, (last.widened extra).advance job = .next next ∧
      next.tape.cells = (last.widened extra).tape.cells ∧
      next.tape.pointer = m.tape.capacity := by
  obtain ⟨hafter, _, _, i, hi, hexceeds⟩ := exceeds_of_endsAfter hlive he
  cases hexceeds with
  | pastLast hend =>
    obtain ⟨t, ht, hcells, hpointer⟩ := Tape.forward_widened hend hextra
    have hcapacity : last.tape.capacity = m.tape.capacity := (kin_of_after hafter).capacity
    exact ⟨hafter, _, advance_exchanged_of_exceeds hlive hi (.pastLast hend) ht, hcells,
      hpointer.trans hcapacity⟩

end Machine

namespace Interpreter

/-- The interpreter with the tape with more cells. -/
def widened (extra : Nat) (it : Interpreter) : Interpreter :=
  { it with tape := it.tape.widened extra }

section

variable {capacity capacity' : Nat} (hpos : 1 ≤ capacity) (hle : capacity ≤ capacity')
  {limit : Option (Option Nat)} {traced : Bool} {source : String} {input input' : Input}
  {output output' : Output} {it : Interpreter} {ending : Ending}

theorem capacity_reset_fresh (hpos : 1 ≤ capacity) (policy : Policy)
    (limit : Option (Option Nat)) :
    (fresh capacity policy limit).reset.tape.capacity = capacity := by
  rw [(fits_fresh limit).reset_eq]
  exact (Tape.size_cells_new capacity policy).trans (Nat.max_eq_left hpos)

theorem policy_reset_fresh (capacity : Nat) (policy : Policy) (limit : Option (Option Nat)) :
    (fresh capacity policy limit).reset.tape.policy = policy := by
  rw [(fits_fresh limit).reset_eq]
  rfl

include hpos hle

theorem reset_fresh_widened :
    (fresh capacity' .strict limit).reset =
      (fresh capacity .strict limit).reset.widened (capacity' - capacity) := by
  rw [(fits_fresh limit).reset_eq, (fits_fresh limit).reset_eq, Tape.new_widened hpos hle]
  rfl

theorem machine_fresh_widened :
    (fresh capacity' .strict limit).reset.machine input output =
      ((fresh capacity .strict limit).reset.machine input output).widened
        (capacity' - capacity) := by
  rw [reset_fresh_widened hpos hle]
  rfl

theorem evaluatesTo_of_fits
    (h : EvaluatesTo .live traced source input output (fresh capacity .strict limit) ending it
      input' output')
    (hfits : ∀ site pointer, ending ≠ .failed (.overrun site (.pastLast pointer))) :
    EvaluatesTo .live traced source input output (fresh capacity' .strict limit) ending
      (it.widened (capacity' - capacity)) input' output' := by
  cases hread : read source with
  | error cause =>
    obtain ⟨rfl, rfl, rfl, rfl⟩ := (evaluatesTo_of_error hread).1 h
    exact (evaluatesTo_of_error hread).2 ⟨rfl, (reset_fresh_widened hpos hle).symm, rfl, rfl⟩
  | ok loaded =>
    obtain ⟨program, jumps⟩ := loaded
    obtain ⟨m, hrun, rfl, rfl, rfl⟩ := (evaluatesTo_of_ok hread).1 h
    refine (evaluatesTo_of_ok hread).2 ⟨m.widened (capacity' - capacity), ?_, rfl, rfl, rfl⟩
    rw [machine_fresh_widened hpos hle]
    have hstrict := policy_reset_fresh capacity .strict limit
    obtain ⟨_, hrun', _, rfl⟩ :=
      (Machine.lockstep_widened (capacity' - capacity) rfl).runsTo rfl rfl ⟨hstrict, rfl⟩ hrun
        fun site cause hending ⟨pointer, hcause⟩ => hfits site pointer (hcause ▸ hending)
    exact hrun'

/-- What does not end past the last cell of the small tape comes to an end on both or on neither. -/
theorem endless_iff_of_fits
    (hfits : ∀ site pointer it input' output',
      ¬EvaluatesTo .live traced source input output (fresh capacity .strict limit)
        (.failed (.overrun site (.pastLast pointer))) it input' output') :
    (∀ fuel, (fresh capacity' .strict limit).evaluate traced fuel source input output = none) ↔
      ∀ fuel, (fresh capacity .strict limit).evaluate traced fuel source input output = none := by
  simp only [evaluate]
  cases hread : read source with
  | error cause => simp only [execute_of_error hread, reduceCtorEq]
  | ok loaded =>
    obtain ⟨program, jumps⟩ := loaded
    rw [endless_of_ok hread, endless_of_ok hread, machine_fresh_widened hpos hle]
    have hstrict := policy_reset_fresh capacity .strict limit
    -- The one exception of the lockstep is what `hfits` rules out.
    refine (Machine.lockstep_widened (capacity' - capacity) rfl).endless_iff rfl rfl
      ⟨hstrict, rfl⟩ ?_
    rintro ending final hrun site _ rfl ⟨pointer, rfl⟩
    exact hfits site pointer _ _ _ ((evaluatesTo_of_ok hread).2 ⟨final, hrun, rfl, rfl, rfl⟩)

end

/-- More tape never changes an evaluation on a fresh strict interpreter that fits. It ends in the
same way, with the same counter and pointer, the same written and the same left unread, and with
zeros in the cells that there are more of; or both come to no end. If the evaluation moves past the
last cell, the one with more tape has made the same steps up to there, and makes the next one. -/
theorem evaluatesTo_widened {capacity capacity' : Nat} (hpos : 1 ≤ capacity)
    (hle : capacity ≤ capacity') (limit : Option (Option Nat)) (traced : Bool) (source : String)
    (input : Input) (output : Output) :
    let extra := capacity' - capacity
    let small := fresh capacity .strict limit
    let large := fresh capacity' .strict limit
    (∀ ending it input' output',
      EvaluatesTo .live traced source input output small ending it input' output' →
      (∀ site pointer, ending ≠ .failed (.overrun site (.pastLast pointer))) →
      EvaluatesTo .live traced source input output large ending (it.widened extra) input'
        output') ∧
    ((∀ site pointer it input' output', ¬EvaluatesTo .live traced source input output small
        (.failed (.overrun site (.pastLast pointer))) it input' output') →
      ((∀ fuel, large.evaluate traced fuel source input output = none) ↔
        ∀ fuel, small.evaluate traced fuel source input output = none)) ∧
    ∀ site pointer it input' output',
      EvaluatesTo .live traced source input output small
        (.failed (.overrun site (.pastLast pointer))) it input' output' →
      capacity < capacity' →
      ∃ program jumps k last next, read source = .ok (program, jumps) ∧
        it = ofMachine program jumps last ∧ input' = last.input ∧ output' = last.output ∧
        let job : Job := ⟨program, jumps, .live⟩
        (small.reset.machine input output).after job k = some last ∧
        (∀ j m, (small.reset.machine input output).after job j = some m →
          (large.reset.machine input output).after job j = some (m.widened extra)) ∧
        (last.widened extra).advance job = .next next ∧
        next.tape.cells = (last.widened extra).tape.cells ∧ next.tape.pointer = capacity := by
  intro extra small large
  refine ⟨fun ending it input' output' => evaluatesTo_of_fits hpos hle,
    endless_iff_of_fits hpos hle, ?_⟩
  intro site pointer it input' output' heval hlt
  cases hread : read source with
  | error cause =>
    obtain ⟨hending, _⟩ := (evaluatesTo_of_error hread).1 heval
    cases hending
  | ok loaded =>
    obtain ⟨program, jumps⟩ := loaded
    obtain ⟨last, hrun, rfl, rfl, rfl⟩ := (evaluatesTo_of_ok hread).1 heval
    obtain ⟨k, he⟩ := (Machine.runsTo_iff rfl).1 hrun
    obtain ⟨hafter, next, hnext, hcells, hpointer⟩ :=
      Machine.advance_widened_of_pastLast rfl (Nat.sub_pos_of_lt hlt) he
    refine ⟨program, jumps, k, last, next, rfl, rfl, rfl, rfl, hafter, ?_, hnext, hcells,
      hpointer.trans (capacity_reset_fresh hpos .strict limit)⟩
    intro j m hj
    rw [machine_fresh_widened hpos hle]
    exact Machine.after_widened rfl (policy_reset_fresh capacity .strict limit) hj

/-- `+>` does not fit on a single cell. With three cells the second step is made as well. -/
theorem evaluatesTo_widened_three :
    let small := fresh 1 .strict none
    let large := fresh 3 .strict none
    let it : Interpreter := ⟨(Tape.new 1 .strict).store 1,
      ⟨#[⟨.increment, 0⟩, ⟨.moveRight, 1⟩]⟩, ⟨#[none, none], 0⟩, 1, none⟩
    1 ≤ 1 ∧ 1 ≤ 3 ∧
      EvaluatesTo .live false "+>" [] {} small (.failed (.overrun ⟨1, 1⟩ (.pastLast 0))) it [] {} ∧
      1 < 3 ∧ ∃ job k last next, (small.reset.machine [] {}).after job k = some last ∧
        (large.reset.machine [] {}).after job k = some (last.widened 2) ∧
        it.tape = last.tape ∧ (last.widened 2).advance job = .next next ∧
        next.tape.pointer = 1 := by
  intro small large it
  have heval : EvaluatesTo .live false "+>" [] {} small
      (.failed (.overrun ⟨1, 1⟩ (.pastLast 0))) it [] {} := ⟨3, _, rfl⟩
  obtain ⟨program, jumps, k, last, next, _, hit, _, _, hafter, hsame, hnext, _, hpointer⟩ :=
    (evaluatesTo_widened (Nat.le_refl 1) (by decide : 1 ≤ 3) none false "+>" [] {}).2.2 _ _ _ _ _
      heval (by decide)
  exact ⟨Nat.le_refl 1, by decide, heval, by decide, _, k, last, next, hafter, hsame k last hafter,
    congrArg Interpreter.tape hit, hnext, hpointer⟩

end Interpreter

end TapeMachine
