import TapeMachine.Policy

/-!
# TapeMachine.Tape

The memory of the machine: a fixed number of byte cells and one pointer that always stands on a
cell.

* `Tape.new`                       — a tape of zeros; even the smallest tape has one cell.
* `Tape.increment`, `decrement`    — arithmetic modulo 256 on the cell under the pointer.
* `Tape.forward`, `backward`       — moves; at an end the policy decides between coming back in
  at the other end and an `Overrun`.
* `Tape.Action`, `Tape.act`        — the same operations as data, and `replay` of a history.
-/

namespace TapeMachine

inductive Overrun where
  /-- A move forward from the last cell, which is the one given. -/
  | pastLast (pointer : Nat)
  | belowFirst
  deriving DecidableEq

def Overrun.message : Overrun → String
  | pastLast pointer => s!"out of memory: pointer moved past the last cell ({pointer})"
  | belowFirst => "access violation: pointer moved below cell 0"

/-- A row of byte cells with a pointer to one of them. -/
structure Tape where
  cells : Array UInt8
  pointer : Nat
  policy : Policy
  pointer_lt : pointer < cells.size

namespace Tape

def defaultCapacity : Nat := 30000

/-- The largest number of bytes that can be asked for in one piece, one below the 63rd power
of 2. -/
def maxCapacity : Nat := 9223372036854775807

/-- A tape of zeros. A capacity of 0 is raised to a single cell. -/
def new (capacity : Nat) (policy : Policy) : Tape where
  cells := Array.replicate (max capacity 1) 0
  pointer := 0
  policy := policy
  pointer_lt := by rw [Array.size_replicate]; omega

def allocate? (capacity : Nat) (policy : Policy) : Option Tape :=
  if max capacity 1 ≤ maxCapacity then some (new capacity policy) else none

def capacity (t : Tape) : Nat := t.cells.size

def cell (t : Tape) : UInt8 := getElem t.cells t.pointer t.pointer_lt

def store (t : Tape) (value : UInt8) : Tape where
  cells := t.cells.set t.pointer value t.pointer_lt
  pointer := t.pointer
  policy := t.policy
  pointer_lt := by simpa using t.pointer_lt

def increment (t : Tape) : Tape := t.store (t.cell + 1)

def decrement (t : Tape) : Tape := t.store (t.cell - 1)

def forward (t : Tape) : Except Overrun Tape :=
  if h : t.pointer + 1 < t.cells.size then
    .ok { t with pointer := t.pointer + 1, pointer_lt := h }
  else
    match t.policy with
    | .wrap => .ok { t with pointer := 0, pointer_lt := Nat.zero_lt_of_lt t.pointer_lt }
    | .strict => .error (.pastLast t.pointer)

def backward (t : Tape) : Except Overrun Tape :=
  if 0 < t.pointer then
    .ok { t with pointer := t.pointer - 1, pointer_lt := by have := t.pointer_lt; omega }
  else
    match t.policy with
    | .wrap =>
      .ok { t with pointer := t.cells.size - 1, pointer_lt := by have := t.pointer_lt; omega }
    | .strict => .error .belowFirst

def reset (t : Tape) : Tape where
  cells := Array.replicate t.cells.size 0
  pointer := 0
  policy := t.policy
  pointer_lt := by rw [Array.size_replicate]; have := t.pointer_lt; omega

def marked (t : Tape) : List (Nat × UInt8) :=
  t.cells.toList.zipIdx.filterMap fun (value, index) =>
    if value = 0 then none else some (index, value)

/-! ## Histories -/

inductive Action where
  | increment
  | decrement
  | forward
  | backward
  | store (value : UInt8)
  | reset
  deriving DecidableEq

def act (t : Tape) : Action → Except Overrun Tape
  | .increment => .ok t.increment
  | .decrement => .ok t.decrement
  | .forward => t.forward
  | .backward => t.backward
  | .store value => .ok (t.store value)
  | .reset => .ok t.reset

/-- Carries out one operation; a move that fails leaves the tape as it is. -/
def attempt (t : Tape) (a : Action) : Tape :=
  match t.act a with
  | .ok t => t
  | .error _ => t

/-- Carries out a history, in which moves that fail have no effect. -/
def replay (t : Tape) (history : List Action) : Tape := history.foldl attempt t

/-- Repeats an operation up to `count` times, until it fails. Gives the number of successes, on
top of the `done` ones before, the tape afterwards and the failure. -/
def repeated (a : Action) : Nat → Nat → Tape → Nat × Tape × Option Overrun
  | 0, done, t => (done, t, none)
  | count + 1, done, t =>
    match t.act a with
    | .ok t => repeated a count (done + 1) t
    | .error o => (done, t, some o)

@[simp] theorem size_cells_new (capacity : Nat) (policy : Policy) :
    (new capacity policy).cells.size = max capacity 1 := by simp [new]

@[simp] theorem size_cells_store (t : Tape) (value : UInt8) :
    (t.store value).cells.size = t.cells.size := by simp [store]

@[simp] theorem size_cells_reset (t : Tape) : t.reset.cells.size = t.cells.size := by
  simp [reset]

@[simp] theorem cell_store (t : Tape) (value : UInt8) : (t.store value).cell = value := by
  simp [store, cell]

@[simp] theorem cell_increment (t : Tape) : t.increment.cell = t.cell + 1 := by
  simp [increment]

@[simp] theorem cell_decrement (t : Tape) : t.decrement.cell = t.cell - 1 := by
  simp [decrement]

/-! ## What moves leave alone -/

theorem forward_eq_ok {t t' : Tape} (h : t.forward = .ok t') :
    t'.cells = t.cells ∧ t'.policy = t.policy := by
  unfold forward at h
  split at h
  · cases h; exact ⟨rfl, rfl⟩
  · split at h <;> cases h
    exact ⟨rfl, rfl⟩

theorem backward_eq_ok {t t' : Tape} (h : t.backward = .ok t') :
    t'.cells = t.cells ∧ t'.policy = t.policy := by
  unfold backward at h
  split at h
  · cases h; exact ⟨rfl, rfl⟩
  · split at h <;> cases h
    exact ⟨rfl, rfl⟩

end Tape

end TapeMachine
