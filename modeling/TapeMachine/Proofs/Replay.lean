import Mathlib.Data.List.DropRight
import Mathlib.Data.Int.ModEq
import TapeMachine.Proofs.Rotation

/-!
# TapeMachine.Proofs.Replay

What a tape holds after any history of operations, without going through the history.

* `Tape.located`   — a history with the cell that the pointer is on at every operation.
* `Tape.doneOn`    — what has been done on a cell since the last reset.
* `Tape.Action.net`, `Tape.Action.amount` — how often one operation is there more often than
  another, and what a cell comes to by what has been done on it.
* `Tape.replay_closedForm` — the pointer and the cells after a history. Without ends the pointer
  stands on the difference of the moves, modulo the size; with ends the moves that fail are those
  over an end. Every cell holds its amount modulo 256.
-/

namespace TapeMachine.Tape

namespace Action

/-- How much more often `up` is in a history than `down`. -/
def net (up down : Action) (history : List Action) : Int := history.count up - history.count down

def stored? : Action → Option UInt8
  | store value => some value
  | _ => none

/-- The operations behind the last reset. -/
def sinceReset (history : List Action) : List Action := history.rtakeWhile (· ≠ reset)

/-- The operations behind the last one that stored a value. -/
def sinceStore (done : List Action) : List Action := done.rtakeWhile (·.stored? = none)

/-- The last value that was stored, or else 0. -/
def lastStored (done : List Action) : UInt8 := (done.filterMap stored?).getLast?.getD 0

/-- The last value that was stored, with the increments and without the decrements behind it. -/
def amount (done : List Action) : Int :=
  (lastStored done).toNat + net increment decrement (sinceStore done)

end Action

/-- A history with the cell that the pointer is on at every operation. -/
def located (t : Tape) (history : List Action) : List (Nat × Action) :=
  history.zipIdx.map fun (a, n) => ((t.replay (history.take n)).pointer, a)

/-- What has been done on a cell since the last reset, in order. -/
def doneOn (t : Tape) (history : List Action) (cell : Nat) : List Action :=
  (((t.located history).rtakeWhile (·.2 ≠ .reset)).filter (·.1 = cell)).map (·.2)

/-- How many operations of a history succeed. -/
def successes : Tape → List Action → Nat
  | _, [] => 0
  | t, a :: rest => (if (t.act a).isOk then 1 else 0) + successes (t.attempt a) rest

variable {t : Tape} {a : Action} {history : List Action}

namespace Action

theorem net_concat (up down a : Action) (history : List Action) :
    net up down (history ++ [a]) =
      net up down history + (if a = up then 1 else 0) - (if a = down then 1 else 0) := by
  simp only [net, List.count_append, List.count_singleton, beq_iff_eq]
  split <;> split <;> omega

theorem sinceReset_concat_reset (history : List Action) : sinceReset (history ++ [reset]) = [] :=
  List.rtakeWhile_concat_neg _ _ _ (by decide)

theorem sinceReset_concat (h : a ≠ reset) (history : List Action) :
    sinceReset (history ++ [a]) = sinceReset history ++ [a] :=
  List.rtakeWhile_concat_pos _ _ _ (by simpa using h)

theorem amount_concat_store (done : List Action) (value : UInt8) :
    amount (done ++ [store value]) = value.toNat := by
  have hsince : sinceStore (done ++ [store value]) = [] :=
    List.rtakeWhile_concat_neg _ _ _ (by simp [stored?])
  have hlast : lastStored (done ++ [store value]) = value := by
    simp [lastStored, stored?]
  rw [amount, hsince, hlast]
  simp [net]

theorem amount_concat (h : a.stored? = none) (done : List Action) :
    amount (done ++ [a]) =
      amount done + (if a = increment then 1 else 0) - (if a = decrement then 1 else 0) := by
  have hsince : sinceStore (done ++ [a]) = sinceStore done ++ [a] :=
    List.rtakeWhile_concat_pos _ _ _ (by simpa using h)
  have hlast : lastStored (done ++ [a]) = lastStored done := by
    rw [lastStored, List.filterMap_append, List.filterMap_cons_none h, List.filterMap_nil,
      List.append_nil, lastStored]
  rw [amount, amount, hsince, hlast, net_concat]
  omega

end Action

open TapeMachine.Tape.Action

/-! ## One operation more -/

theorem replay_concat (t : Tape) (history : List Action) (a : Action) :
    t.replay (history ++ [a]) = (t.replay history).attempt a := List.foldl_concat ..

theorem located_concat (t : Tape) (history : List Action) (a : Action) :
    t.located (history ++ [a]) = t.located history ++ [((t.replay history).pointer, a)] := by
  have hinit : ∀ x ∈ history.zipIdx,
      ((t.replay ((history ++ [a]).take x.2)).pointer, x.1) =
        ((t.replay (history.take x.2)).pointer, x.1) := by
    intro x hx
    have hlt := (List.mem_zipIdx hx).2.1
    rw [List.take_append_of_le_length (by omega)]
  rw [located, List.zipIdx_append, List.map_append, List.map_congr_left hinit]
  simp [located]

theorem doneOn_concat_reset (t : Tape) (history : List Action) (cell : Nat) :
    t.doneOn (history ++ [.reset]) cell = [] := by
  rw [doneOn, located_concat, List.rtakeWhile_concat_neg _ _ _ (by simp)]
  rfl

theorem doneOn_concat (h : a ≠ .reset) (t : Tape) (history : List Action) (cell : Nat) :
    t.doneOn (history ++ [a]) cell =
      t.doneOn history cell ++ if (t.replay history).pointer = cell then [a] else [] := by
  rw [doneOn, located_concat, List.rtakeWhile_concat_pos _ _ _ (by simpa using h),
    List.filter_append, List.map_append, doneOn]
  split <;> simp [*]

/-! ## What stays, and where the pointer goes -/

theorem cells_attempt_of_move (h : a = .forward ∨ a = .backward) :
    (t.attempt a).cells = t.cells ∧ (t.attempt a).policy = t.policy := by
  unfold attempt
  split
  · rename_i t' hok
    rcases h with rfl | rfl
    · exact forward_eq_ok hok
    · exact backward_eq_ok hok
  · exact ⟨rfl, rfl⟩

theorem kept_attempt (t : Tape) (a : Action) :
    (t.attempt a).cells.size = t.cells.size ∧ (t.attempt a).policy = t.policy := by
  cases a with
  | increment => exact ⟨size_cells_store t _, rfl⟩
  | decrement => exact ⟨size_cells_store t _, rfl⟩
  | store value => exact ⟨size_cells_store t value, rfl⟩
  | reset => exact ⟨size_cells_reset t, rfl⟩
  | forward =>
    obtain ⟨hcells, hpolicy⟩ := cells_attempt_of_move (t := t) (.inl rfl)
    exact ⟨congrArg _ hcells, hpolicy⟩
  | backward =>
    obtain ⟨hcells, hpolicy⟩ := cells_attempt_of_move (t := t) (.inr rfl)
    exact ⟨congrArg _ hcells, hpolicy⟩

theorem kept_replay (t : Tape) (history : List Action) :
    (t.replay history).cells.size = t.cells.size ∧ (t.replay history).policy = t.policy := by
  induction history using List.reverseRecOn with
  | nil => exact ⟨rfl, rfl⟩
  | append_singleton history a ih =>
    obtain ⟨hsize, hpolicy⟩ := kept_attempt (t.replay history) a
    rw [replay_concat]
    exact ⟨hsize.trans ih.1, hpolicy.trans ih.2⟩

/-- On a tape without ends every operation but the reset adds to the pointer, modulo the size. -/
theorem pointer_attempt_of_wrap (h : t.policy = .wrap) (ha : a ≠ .reset) :
    ((t.attempt a).pointer : Int) ≡
      t.pointer + (if a = .forward then 1 else 0) - (if a = .backward then 1 else 0)
      [ZMOD t.cells.size] := by
  cases a with
  | reset => exact absurd rfl ha
  | forward =>
    have hattempt : t.attempt .forward = t.pointAt (t.pointer + 1) := by
      simp only [attempt, act, forward_of_wrap h]
    rw [hattempt, pointAt, Int.natCast_mod]
    simpa using Int.mod_modEq _ _
  | backward =>
    have hattempt : t.attempt .backward = t.pointAt (t.pointer + (t.cells.size - 1)) := by
      simp only [attempt, act, backward_of_wrap h]
    have hpos := t.size_cells_pos
    have hround : ((t.pointer + (t.cells.size - 1) : Nat) : Int) =
        t.pointer - 1 + t.cells.size := by omega
    rw [hattempt, pointAt, Int.natCast_mod, hround]
    simpa using Int.mod_modEq _ _
  | _ => simp [attempt, act, increment, decrement, store, Int.ModEq.refl]

theorem pointer_replay_of_wrap (h : t.policy = .wrap) (hzero : t.pointer = 0)
    (history : List Action) :
    ((t.replay history).pointer : Int) ≡ net .forward .backward (sinceReset history)
      [ZMOD t.cells.size] := by
  -- By induction on the history, from its end.
  induction history using List.reverseRecOn with
  | nil => simp [replay, hzero, sinceReset, net, Int.ModEq.refl]
  | append_singleton history a ih =>
    obtain ⟨hsize, hpolicy⟩ := kept_replay t history
    rw [replay_concat]
    by_cases ha : a = .reset
    · rw [ha, sinceReset_concat_reset]
      exact Int.ModEq.refl 0
    · have hstep := pointer_attempt_of_wrap (hpolicy.trans h) ha
      rw [hsize] at hstep
      rw [sinceReset_concat ha, net_concat]
      exact hstep.trans ((ih.add_right _).sub_right _)

/-- With ends, as many moves forward succeed as there are cells before the pointer. -/
theorem successes_forward (h : t.policy = .strict) (n : Nat) :
    t.successes (List.replicate n .forward) = min n (t.cells.size - 1 - t.pointer) := by
  induction n generalizing t with
  | zero => simp [successes]
  | succ n ih =>
    rw [List.replicate_succ, successes]
    by_cases hlt : t.pointer + 1 < t.cells.size
    · have hok := forward_of_lt hlt
      have hrest := ih (t := { t with pointer := t.pointer + 1, pointer_lt := hlt }) h
      dsimp only at hrest
      simp only [act, attempt, hok, Except.isOk, Except.toBool, if_true]
      omega
    · have hend : t.pointer + 1 = t.capacity := by
        have hpointer := t.pointer_lt
        rw [capacity]
        omega
      have herror := forward_eq_error_iff.2 ⟨h, hend, rfl⟩
      have hrest := ih h
      simp only [act, attempt, herror, Except.isOk, Except.toBool, Bool.false_eq_true, if_false]
      rw [capacity] at hend
      omega

/-! ## The cells -/

/-- Every cell holds its amount, modulo 256. -/
def Holds (t : Tape) (amounts : Nat → Int) : Prop :=
  ∀ k < t.cells.size, ∃ value, t.cells[k]? = some value ∧ (value.toNat : Int) = amounts k % 256

variable {amounts amounts' : Nat → Int} {value : UInt8}

theorem getElem?_pointer (t : Tape) : t.cells[t.pointer]? = some t.cell :=
  Array.getElem?_eq_getElem t.pointer_lt

theorem Holds.cell (h : t.Holds amounts) : (t.cell.toNat : Int) = amounts t.pointer % 256 := by
  obtain ⟨value, hvalue, hamount⟩ := h t.pointer t.pointer_lt
  rw [getElem?_pointer] at hvalue
  cases hvalue
  exact hamount

theorem Holds.store (h : t.Holds amounts)
    (hvalue : (value.toNat : Int) = amounts' t.pointer % 256)
    (hothers : ∀ k ≠ t.pointer, amounts' k = amounts k) : (t.store value).Holds amounts' := by
  intro k hk
  rw [size_cells_store] at hk
  by_cases hpointer : t.pointer = k
  · subst hpointer
    exact ⟨value, by simp [Tape.store, t.pointer_lt], hvalue⟩
  · obtain ⟨other, hother, hamount⟩ := h k hk
    refine ⟨other, ?_, by rw [hothers k (Ne.symm hpointer), hamount]⟩
    rw [Tape.store, Array.getElem?_set_ne t.pointer_lt hpointer, hother]

theorem holds_zeros (h : t.cells = Array.replicate t.cells.size 0) : t.Holds fun _ => 0 := by
  intro k hk
  rw [h]
  exact ⟨0, by simp [hk], rfl⟩

/-- An operation is one more on the cell that the pointer is on, and nothing on the others. -/
theorem Holds.attempt {done : Nat → List Action} (h : t.Holds fun k => amount (done k))
    (ha : a ≠ .reset) :
    (t.attempt a).Holds fun k => amount (done k ++ if t.pointer = k then [a] else []) := by
  have hothers : ∀ k ≠ t.pointer,
      amount (done k ++ if t.pointer = k then [a] else []) = amount (done k) := fun k hk => by
    rw [if_neg (Ne.symm hk), List.append_nil]
  have hcell := h.cell
  cases a with
  | reset => exact absurd rfl ha
  | increment =>
    refine h.store ?_ hothers
    rw [if_pos rfl, amount_concat rfl, UInt8.toNat_add]
    simp
    omega
  | decrement =>
    refine h.store ?_ hothers
    rw [if_pos rfl, amount_concat rfl, UInt8.toNat_sub]
    simp
    omega
  | store value =>
    refine h.store ?_ hothers
    have hlt := value.toNat_lt
    rw [if_pos rfl, amount_concat_store]
    omega
  | _ =>
    intro k hk
    rw [(cells_attempt_of_move (by simp)).1] at hk ⊢
    obtain ⟨value, hvalue, hamount⟩ := h k hk
    refine ⟨value, hvalue, hamount.trans ?_⟩
    dsimp only
    split
    · rw [amount_concat rfl]
      simp
    · rw [List.append_nil]

theorem holds_replay (capacity : Nat) (policy : Policy) (history : List Action) :
    ((new capacity policy).replay history).Holds
      fun k => amount ((new capacity policy).doneOn history k) := by
  -- By induction on the history, from its end.
  induction history using List.reverseRecOn with
  | nil => exact holds_zeros (by simp [replay, new])
  | append_singleton history a ih =>
    rw [replay_concat]
    by_cases ha : a = .reset
    · subst ha
      simp only [doneOn_concat_reset]
      exact holds_zeros (by simp [Tape.attempt, act, reset])
    · simp only [doneOn_concat ha]
      exact ih.attempt ha

/-- What a tape holds after any history, in which the moves that fail have no effect. The size and
the policy stay, and the pointer stays on a cell. On a tape without ends the pointer is the moves
forward less the moves backward since the last reset, modulo the size, and no move fails. On one
with ends the moves that fail are the one forward from the last cell, which is named, and the one
backward from the first; of `n` moves forward in a row as many succeed as there are cells ahead.
Every cell holds the last value stored on it since the last reset, or else 0, with the increments
and without the decrements that have been made on it since then, modulo 256. -/
theorem replay_closedForm (capacity : Nat) (policy : Policy) (history : List Action) :
    let size := max capacity 1
    let t := (new capacity policy).replay history
    t.cells.size = size ∧ t.policy = policy ∧ t.pointer < size ∧
      (policy = .wrap →
        (t.pointer : Int) = net .forward .backward (sinceReset history) % size ∧
          (∃ t', t.forward = .ok t') ∧ ∃ t', t.backward = .ok t') ∧
      (policy = .strict →
        (∀ o, t.forward = .error o ↔ t.pointer = size - 1 ∧ o = .pastLast t.pointer) ∧
          (∀ o, t.backward = .error o ↔ t.pointer = 0 ∧ o = .belowFirst) ∧
          ∀ n, t.successes (List.replicate n .forward) = min n (size - 1 - t.pointer)) ∧
      ∀ k < size, ∃ value, t.cells[k]? = some value ∧
        (value.toNat : Int) = amount ((new capacity policy).doneOn history k) % 256 := by
  intro size t
  obtain ⟨hsize, hpolicy⟩ := kept_replay (new capacity policy) history
  have hsize : t.cells.size = size := hsize.trans (size_cells_new capacity policy)
  have hpolicy : t.policy = policy := hpolicy
  have hlt : t.pointer < size := hsize ▸ t.pointer_lt
  refine ⟨hsize, hpolicy, hlt, ?_, ?_, ?_⟩
  · rintro rfl
    refine ⟨?_, ⟨_, forward_of_wrap hpolicy⟩, _, backward_of_wrap hpolicy⟩
    have hmod := pointer_replay_of_wrap (t := new capacity .wrap) rfl rfl history
    rw [size_cells_new] at hmod
    rw [← hmod.eq, Int.emod_eq_of_lt (Int.natCast_nonneg _) (Int.ofNat_lt.2 hlt)]
  · rintro rfl
    refine ⟨fun o => ?_, fun o => ?_, fun n => ?_⟩
    · have hend : t.pointer + 1 = t.capacity ↔ t.pointer = size - 1 := by
        rw [Tape.capacity, hsize]
        omega
      rw [forward_eq_error_iff, hend]
      simp only [hpolicy, true_and]
    · rw [backward_eq_error_iff]
      simp only [hpolicy, true_and]
    · rw [successes_forward hpolicy, hsize]
  · rw [← hsize]
    exact holds_replay capacity policy history

/-- More moves backward than there are cells, on three of them. Without ends the two decrements meet
on the last cell; with ends all the moves fail, and the decrements are made on the first one. -/
theorem replay_closedForm_around :
    let history : List Action :=
      [.store 9, .reset, .backward, .decrement, .backward, .backward, .backward, .decrement]
    let t := (new 3 .wrap).replay history
    let t' := (new 3 .strict).replay history
    ((t.pointer : Int) = -4 % 3 ∧
      ∃ value, t.cells[2]? = some value ∧ (value.toNat : Int) = -2 % 256) ∧
    t'.backward = .error .belowFirst ∧ t'.successes (List.replicate 5 .forward) = 2 ∧
      ∃ value, t'.cells[0]? = some value ∧ (value.toNat : Int) = -2 % 256 := by
  intro history t t'
  obtain ⟨-, -, -, hwrap, -, hcells⟩ := replay_closedForm 3 .wrap history
  obtain ⟨-, -, -, -, hstrict, hcells'⟩ := replay_closedForm 3 .strict history
  obtain ⟨-, hbackward, hforward⟩ := hstrict rfl
  have hnet : net .forward .backward (sinceReset history) = -4 := by decide
  have hamount : amount ((new 3 .wrap).doneOn history 2) = -2 := by decide +kernel
  have hamount' : amount ((new 3 .strict).doneOn history 0) = -2 := by decide +kernel
  have hpointer : t'.pointer = 0 := by decide +kernel
  refine ⟨⟨?_, ?_⟩, (hbackward _).2 ⟨hpointer, rfl⟩, ?_, ?_⟩
  · rw [← hnet]
    exact (hwrap rfl).1
  · rw [← hamount]
    exact hcells 2 (by decide)
  · rw [hforward 5, hpointer]
    rfl
  · rw [← hamount']
    exact hcells' 0 (by decide)

end TapeMachine.Tape
