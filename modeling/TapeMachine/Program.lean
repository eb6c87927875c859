import TapeMachine.Instruction
import TapeMachine.Rejection

/-!
# TapeMachine.Program

A program is the sequence of instructions that a text holds, each with the character offset it
stands at, so that an error can point back into the text.

* `Program.placed`       — the instructions of a text with their offsets; comments drop out.
* `Program.ofSource`     — the program of a text; a text without any instruction is rejected.
* `Program.instruction?` — the instruction under a counter, `none` past the end.
* `Program.text`         — the program written without comments.
-/

namespace TapeMachine

structure Placed where
  instruction : Instruction
  offset : Nat
  deriving DecidableEq

/-- A sequence of instructions, counted from zero. -/
structure Program where
  code : Array Placed
  deriving DecidableEq

namespace Program

def empty : Program := ⟨#[]⟩

/-- The instruction characters of a text, in order, with their offsets. -/
def placed (text : List Char) : List Placed :=
  text.zipIdx.filterMap fun (c, offset) => (Instruction.ofSymbol? c).map (⟨·, offset⟩)

/-- The program written in `source`, which has to hold at least one instruction. -/
def ofSource (source : String) : Except Rejection Program :=
  match placed source.toList with
  | [] => .error .empty
  | code => .ok ⟨code.toArray⟩

def size (p : Program) : Nat := p.code.size

def isEmpty (p : Program) : Bool := p.code.isEmpty

def instruction? (p : Program) (index : Nat) : Option Instruction :=
  p.code[index]?.map (·.instruction)

def offset? (p : Program) (index : Nat) : Option Nat :=
  p.code[index]?.map (·.offset)

/-- The character offset that an error at an index points to. Past the end there is no character
to point to, and the index itself stands in. -/
def locate (p : Program) (index : Nat) : Nat := (p.offset? index).getD index

def instructions (p : Program) : List Instruction := p.code.toList.map (·.instruction)

def offsets (p : Program) : List Nat := p.code.toList.map (·.offset)

def text (p : Program) : String := String.ofList (p.instructions.map Instruction.symbol)

theorem length_instructions (p : Program) : p.instructions.length = p.size := by
  simp [instructions, size]

theorem length_offsets (p : Program) : p.offsets.length = p.size := by
  simp [offsets, size]

theorem instruction?_eq_getElem? (p : Program) (index : Nat) :
    p.instruction? index = p.instructions[index]? := by
  simp [instruction?, instructions]

theorem instruction?_eq_none_iff {p : Program} {index : Nat} :
    p.instruction? index = none ↔ p.size ≤ index := by
  simp [instruction?, size]

/-- Where there is an instruction, its own offset is what an error points to. -/
theorem offset?_of_instruction? {p : Program} {index : Nat} {i : Instruction}
    (h : p.instruction? index = some i) : p.offset? index = some (p.locate index) := by
  obtain ⟨placed, hplaced, _⟩ := Option.map_eq_some_iff.1 h
  simp [locate, offset?, hplaced]

theorem exists_instruction? {p : Program} {index : Nat} (h : index < p.size) :
    ∃ i, p.instruction? index = some i := by
  rw [← Option.ne_none_iff_exists', Ne, instruction?_eq_none_iff]
  omega

theorem lt_size_of_getElem? {p : Program} {index : Nat} {i : Instruction}
    (h : p.instructions[index]? = some i) : index < p.size := by
  rw [← p.length_instructions]
  exact (List.getElem?_eq_some_iff.1 h).1

theorem lt_size_of_instruction? {p : Program} {index : Nat} {i : Instruction}
    (h : p.instruction? index = some i) : index < p.size := by
  rw [instruction?_eq_getElem?] at h
  exact lt_size_of_getElem? h

end Program

end TapeMachine
