/-!
# TapeMachine.Instruction

The eight instructions of the tape machine and the symbols they are written with.

* `Instruction.symbol`    — the character an instruction is written with.
* `Instruction.ofSymbol?` — the instruction a character stands for; every other character is
  a comment.

The two are inverse to each other, `ofSymbol?_eq_some_iff`.
-/

namespace TapeMachine

inductive Instruction where
  | increment
  | decrement
  | moveRight
  | moveLeft
  | read
  | write
  | loopOpen
  | loopClose
  deriving DecidableEq, Inhabited

namespace Instruction

def symbol : Instruction → Char
  | increment => '+'
  | decrement => '-'
  | moveRight => '>'
  | moveLeft => '<'
  | read => ','
  | write => '.'
  | loopOpen => '['
  | loopClose => ']'

/-- The instruction that a character stands for, `none` for a comment. -/
def ofSymbol? : Char → Option Instruction
  | '+' => some increment
  | '-' => some decrement
  | '>' => some moveRight
  | '<' => some moveLeft
  | ',' => some read
  | '.' => some write
  | '[' => some loopOpen
  | ']' => some loopClose
  | _ => none

@[simp] theorem ofSymbol?_symbol (i : Instruction) : ofSymbol? i.symbol = some i := by
  cases i <;> rfl

theorem ofSymbol?_eq_some_iff {c : Char} {i : Instruction} :
    ofSymbol? c = some i ↔ c = i.symbol := by
  constructor
  · intro h
    unfold ofSymbol? at h
    split at h <;> simp_all [symbol] <;> subst h <;> rfl
  · intro h
    rw [h, ofSymbol?_symbol]

theorem symbol_injective {i j : Instruction} (h : i.symbol = j.symbol) : i = j := by
  have := ofSymbol?_symbol i
  rw [h, ofSymbol?_symbol] at this
  exact (Option.some.inj this).symm

end Instruction

end TapeMachine
