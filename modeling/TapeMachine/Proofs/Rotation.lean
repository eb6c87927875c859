import TapeMachine.Proofs.Exchange
import TapeMachine.Proofs.Parallel

/-!
# TapeMachine.Proofs.Rotation

A tape without ends has no beginning either: all of its cells are alike.

* `Tape.Rotation`  — a tape whose cells are those of another one, `k` places further on.
* `Tape.rotated`   — the one tape that is so, `rotation_rotated` and `Rotation.unique`.
* `forward_of_wrap`, `backward_of_wrap` — on a tape without ends a move is addition modulo the
  number of cells, at the ends as everywhere else.
* `commutes_rotated` — so no instruction notices the rotation.
* `run_rotated`    — and with the same fuel an evaluation comes to the same, but for the rotation.
-/

namespace TapeMachine

/-! ## Turning indices -/

section Turn

variable {n i j : Nat}

/-- Turning by the rest of a round behind `k` places gives every index back. -/
theorem turn_back (hi : i < n) (k : Nat) : ((i + k) % n + (n - k % n)) % n = i := by
  have hk := Nat.div_add_mod k n
  have hlt := Nat.mod_lt k (Nat.zero_lt_of_lt hi)
  have hround : i + k + (n - k % n) = i + n * (k / n + 1) := by
    rw [Nat.mul_add]
    omega
  rw [Nat.mod_add_mod, hround, Nat.add_mul_mod_self_left, Nat.mod_eq_of_lt hi]

theorem turn_forth (hj : j < n) (k : Nat) : ((j + (n - k % n)) % n + k) % n = j := by
  have hback := turn_back hj k
  rw [Nat.mod_add_mod] at hback ⊢
  rwa [Nat.add_right_comm]

theorem turn_inj (hi : i < n) (hj : j < n) {k : Nat} : (i + k) % n = (j + k) % n ↔ i = j := by
  constructor
  · intro h
    rw [← turn_back hi k, ← turn_back hj k, h]
  · intro h
    rw [h]

end Turn

namespace Tape

/-- The second tape is the first one with its cells and its pointer `k` places further on, where the
cells that leave it at the end come in at the beginning. -/
structure Rotation (k : Nat) (t t' : Tape) : Prop where
  capacity : t'.cells.size = t.cells.size
  policy : t'.policy = t.policy
  cells : ∀ i < t.cells.size, t'.cells[(i + k) % t.cells.size]? = t.cells[i]?
  pointer : t'.pointer = (t.pointer + k) % t.cells.size

theorem size_cells_pos (t : Tape) : 0 < t.cells.size := Nat.zero_lt_of_lt t.pointer_lt

/-- The tape with its cells and its pointer `k` places further on. -/
def rotated (k : Nat) (t : Tape) : Tape where
  cells := Array.ofFn fun i : Fin t.cells.size =>
    getElem t.cells ((i + (t.cells.size - k % t.cells.size)) % t.cells.size)
      (Nat.mod_lt _ t.size_cells_pos)
  pointer := (t.pointer + k) % t.cells.size
  policy := t.policy
  pointer_lt := by
    rw [Array.size_ofFn]
    exact Nat.mod_lt _ t.size_cells_pos

/-- The tape with its pointer at a cell that is counted on beyond the last one. -/
def pointAt (index : Nat) (t : Tape) : Tape :=
  { t with pointer := index % t.cells.size, pointer_lt := Nat.mod_lt _ t.size_cells_pos }

variable {k : Nat} {t t' t'' : Tape}

theorem rotation_rotated (k : Nat) (t : Tape) : t.Rotation k (t.rotated k) where
  capacity := Array.size_ofFn
  policy := rfl
  cells i hi := by
    have hlt := Nat.mod_lt (i + k) t.size_cells_pos
    simp [rotated, hlt, hi, turn_back hi]
  pointer := rfl

namespace Rotation

theorem unique (h : t.Rotation k t') (h' : t.Rotation k t'') : t' = t'' := by
  have hcells : t'.cells = t''.cells := by
    refine Array.ext_getElem? fun j => ?_
    by_cases hj : j < t.cells.size
    · have hi := Nat.mod_lt (j + (t.cells.size - k % t.cells.size)) t.size_cells_pos
      have hcell := (h.cells _ hi).trans (h'.cells _ hi).symm
      rwa [turn_forth hj] at hcell
    · have hend : t'.cells.size ≤ j := by
        rw [h.capacity]
        omega
      have hend' : t''.cells.size ≤ j := by
        rw [h'.capacity]
        omega
      rw [Array.getElem?_eq_none hend, Array.getElem?_eq_none hend']
  have hpointer := h.pointer.trans h'.pointer.symm
  have hpolicy := h.policy.trans h'.policy.symm
  cases t'
  cases t''
  cases hcells
  cases hpointer
  cases hpolicy
  rfl

theorem eq_rotated (h : t.Rotation k t') : t' = t.rotated k := h.unique (rotation_rotated k t)

theorem cell (h : t.Rotation k t') : t'.cell = t.cell := by
  have hcell := h.cells t.pointer t.pointer_lt
  rw [← h.pointer, Array.getElem?_eq_getElem t'.pointer_lt,
    Array.getElem?_eq_getElem t.pointer_lt] at hcell
  exact Option.some.inj hcell

theorem store (h : t.Rotation k t') (value : UInt8) :
    (t.store value).Rotation k (t'.store value) where
  capacity := by
    rw [size_cells_store, size_cells_store, h.capacity]
  policy := h.policy
  cells i hi := by
    rw [size_cells_store] at hi ⊢
    simp only [Tape.store, Array.getElem?_set, h.pointer, turn_inj t.pointer_lt hi, h.cells i hi]
  pointer := by
    rw [size_cells_store]
    exact h.pointer

theorem pointAt (h : t.Rotation k t') (steps : Nat) :
    (t.pointAt (t.pointer + steps)).Rotation k (t'.pointAt (t'.pointer + steps)) where
  capacity := h.capacity
  policy := h.policy
  cells := h.cells
  pointer := by
    show (t'.pointer + steps) % t'.cells.size =
      ((t.pointer + steps) % t.cells.size + k) % t.cells.size
    rw [h.pointer, h.capacity, Nat.mod_add_mod, Nat.mod_add_mod, Nat.add_right_comm]

end Rotation

/-! ## Moves without ends -/

theorem forward_of_wrap (h : t.policy = .wrap) : t.forward = .ok (t.pointAt (t.pointer + 1)) := by
  have hlt := t.pointer_lt
  unfold forward pointAt
  split
  · rename_i hnext
    simp only [Nat.mod_eq_of_lt hnext]
  · have hend : t.pointer + 1 = t.cells.size := by omega
    rw [h]
    simp only [hend, Nat.mod_self]

theorem backward_of_wrap (h : t.policy = .wrap) :
    t.backward = .ok (t.pointAt (t.pointer + (t.cells.size - 1))) := by
  have hlt := t.pointer_lt
  unfold backward pointAt
  split
  · have hround : t.pointer + (t.cells.size - 1) = t.pointer - 1 + t.cells.size := by omega
    have hprev : t.pointer - 1 < t.cells.size := by omega
    simp only [hround, Nat.add_mod_right, Nat.mod_eq_of_lt hprev]
  · have hzero : t.pointer = 0 := by omega
    have hlast : t.cells.size - 1 < t.cells.size := by omega
    rw [h]
    simp only [hzero, Nat.zero_add, Nat.mod_eq_of_lt hlast]

/-- No instruction notices the rotation of a tape without ends. -/
theorem commutes_rotated (h : t.policy = .wrap) (k : Nat) (i : Instruction) :
    Commutes (rotated k) i t where
  cell := (rotation_rotated k t).cell
  store value := ((rotation_rotated k t).store value).eq_rotated.symm
  onTape := by
    have hr := rotation_rotated k t
    have hstore : ∀ value, (t.rotated k).store value = (t.store value).rotated k :=
      fun value => (hr.store value).eq_rotated
    have hpoint : ∀ steps, (t.rotated k).pointAt ((t.rotated k).pointer + steps) =
        (t.pointAt (t.pointer + steps)).rotated k := fun steps => (hr.pointAt steps).eq_rotated
    have hwrap : (t.rotated k).policy = .wrap := h
    cases i with
    | increment =>
      simp only [Instruction.onTape, increment, hr.cell, hstore]
      rfl
    | decrement =>
      simp only [Instruction.onTape, decrement, hr.cell, hstore]
      rfl
    | moveRight =>
      simp only [Instruction.onTape, forward_of_wrap h, forward_of_wrap hwrap, hpoint]
      rfl
    | moveLeft =>
      simp only [Instruction.onTape, backward_of_wrap h, backward_of_wrap hwrap, hr.capacity,
        hpoint]
      rfl
    | _ => rfl

end Tape

namespace Machine

variable {job : Job} {m : Machine} {k : Nat}

theorem advance_rotated (hlive : job.mode = .live) (hwrap : m.tape.policy = .wrap) (k : Nat) :
    (m.exchanged (Tape.rotated k)).advance job =
      (m.advance job).map (exchanged (Tape.rotated k)) := by
  have hpending : (m.exchanged (Tape.rotated k)).pending job = m.pending job := rfl
  rw [advance, advance, hpending]
  cases m.pending job with
  | error ending => rfl
  | ok i => exact step_exchanged (Tape.commutes_rotated hwrap k i) hlive

theorem parallel_rotated (hlive : job.mode = .live) (k : Nat) :
    Parallel job job Eq
      (fun m m' => m.tape.policy = .wrap ∧ m' = m.exchanged (Tape.rotated k)) := by
  rintro m _ ⟨hwrap, rfl⟩
  rw [advance_rotated hlive hwrap]
  cases hs : m.advance job with
  | next m₁ => exact .next ⟨(kin_of_next hs).policy.trans hwrap, rfl⟩
  | stop ending m₁ => exact .stop rfl ⟨(still_of_stop hs).policy.trans hwrap, rfl⟩

/-- On a tape without ends an evaluation does not depend on where the tape begins. There is a tape
that is rotated by `k` places. With the same fuel the evaluation on it comes to an end if and only
if the other one does; it ends in the same way, and leaves the same counter, number of steps, input,
output and control, and the same tape but for the rotation. -/
theorem run_rotated {m : Machine} (hwrap : m.tape.policy = .wrap) (k : Nat) (program : Program)
    (jumps : JumpTable) (traced traced' : Bool) (fuel : Nat) :
    let job : Job := ⟨program, jumps, .live⟩
    (∃ t, m.tape.Rotation k t) ∧
      ∀ t, m.tape.Rotation k t →
        Option.Rel
          (fun f f' => f'.ending = f.ending ∧
            ∃ t', f.machine.tape.Rotation k t' ∧ f'.machine = { f.machine with tape := t' })
          (m.run job traced fuel) (({ m with tape := t } : Machine).run job traced' fuel) := by
  intro job
  refine ⟨⟨_, Tape.rotation_rotated k m.tape⟩, fun t ht => ?_⟩
  obtain rfl := ht.eq_rotated
  have hlive : job.mode = .live := rfl
  have hrel := (parallel_rotated hlive k).run rfl rfl ⟨hwrap, rfl⟩ traced traced' fuel
  change Option.Rel _ (m.run job traced fuel)
    ((m.exchanged (Tape.rotated k)).run job traced' fuel)
  generalize m.run job traced fuel = r at hrel ⊢
  generalize (m.exchanged (Tape.rotated k)).run job traced' fuel = r' at hrel ⊢
  cases hrel with
  | none => exact .none
  | some h =>
    obtain ⟨hending, _, hmachine⟩ := h
    exact .some ⟨hending.symm, _, Tape.rotation_rotated k _, hmachine⟩

/-- `<-.` on three cells, of which the first holds a 5. The move leads over the end of the tape, and
on the tape that is rotated by two places it does not. -/
theorem run_rotated_backward :
    let p : Program := ⟨#[⟨.moveLeft, 0⟩, ⟨.decrement, 1⟩, ⟨.write, 2⟩]⟩
    let job : Job := ⟨p, ⟨#[none, none, none], 0⟩, .live⟩
    let m : Machine := ⟨⟨#[5, 0, 0], 0, .wrap, by decide⟩, 0, 0, [], {}, none⟩
    let t : Tape := ⟨#[0, 0, 5], 2, .wrap, by decide⟩
    let final : Machine :=
      ⟨⟨#[5, 0, 255], 2, .wrap, by decide⟩, 3, 3, [], { taken := #[255], flushes := 1 }, none⟩
    m.tape.policy = .wrap ∧ m.tape.Rotation 2 t ∧
      m.run job false 4 = some ⟨.finished, final, #[]⟩ ∧
      ∃ f t', ({ m with tape := t } : Machine).run job true 4 = some f ∧ f.ending = .finished ∧
        final.tape.Rotation 2 t' ∧ f.machine = { final with tape := t' } := by
  intro p job m t final
  have ht : m.tape.Rotation 2 t := ⟨rfl, rfl, by decide, rfl⟩
  have hrun : m.run job false 4 = some ⟨.finished, final, #[]⟩ := by cbv
  have hrel := (run_rotated (m := m) rfl 2 job.program job.jumps false true 4).2 t ht
  rw [hrun] at hrel
  generalize run job true 4 _ = r at hrel ⊢
  cases hrel with
  | @some _ f h =>
    obtain ⟨hending, t', hrotation, hmachine⟩ := h
    exact ⟨rfl, ht, hrun, f, t', rfl, hending, hrotation, hmachine⟩

end Machine

end TapeMachine
