import TapeMachine.Proofs.Comments

/-!
# TapeMachine.Proofs.Acceptance

Which texts are programs, said of their characters.

* `Program.spelled` — the instructions that a text spells.
* `Program.Nested`  — the brackets of a text can be paired off. They are counted in the text itself,
  so that nothing is said of instructions; `balanced_spelled_iff` says that it comes to the same.
* `Interpreter.exists_read_iff` — the texts that are programs are those with an instruction in which
  the brackets nest.
* `Interpreter.summary_eq` — how many instructions and loops a program has.
-/

namespace TapeMachine

namespace Program

/-- The instructions that a text spells, in order. -/
def spelled (text : List Char) : List Instruction := text.filterMap Instruction.ofSymbol?

/-- There are as many `[` as `]`, and no beginning of the text has more `]` than `[`. -/
structure Nested (text : List Char) : Prop where
  settled : text.count '[' = text.count ']'
  nonneg : ∀ n, (text.take n).count ']' ≤ (text.take n).count '['

variable {text : List Char} {source : String} {p : Program}

theorem spelled_append (text text' : List Char) :
    spelled (text ++ text') = spelled text ++ spelled text' := List.filterMap_append

theorem spelled_cons_of_none {c : Char} (h : Instruction.ofSymbol? c = none) (rest : List Char) :
    spelled (c :: rest) = spelled rest := List.filterMap_cons_none h

theorem spelled_cons_of_some {c : Char} {i : Instruction} (h : Instruction.ofSymbol? c = some i)
    (rest : List Char) : spelled (c :: rest) = i :: spelled rest := List.filterMap_cons_some h

theorem length_spelled (text : List Char) : (spelled text).length = countSymbols text :=
  List.length_filterMap_eq_countP

theorem map_instruction_placed_eq (text : List Char) :
    (placed text).map (·.instruction) = spelled text :=
  (map_instruction_placed text).trans (filterMap_symbols text)

theorem instructions_eq_spelled (h : ofSource source = .ok p) :
    p.instructions = spelled source.toList :=
  (instructions_of_ofSource h).trans (filterMap_symbols source.toList)

/-! ## Brackets of a text -/

theorem count_spelled (i : Instruction) (text : List Char) :
    (spelled text).count i = text.count i.symbol := by
  induction text with
  | nil => rfl
  | cons c rest ih =>
    cases hc : Instruction.ofSymbol? c with
    | none =>
      have hne : c ≠ i.symbol := by
        rintro rfl
        simp at hc
      rw [spelled_cons_of_none hc, ih, List.count_cons_of_ne hne]
    | some first =>
      obtain rfl := Instruction.ofSymbol?_eq_some_iff.1 hc
      have hsame : (first == i) = (first.symbol == i.symbol) := by
        rw [Bool.eq_iff_iff, beq_iff_eq, beq_iff_eq]
        exact ⟨congrArg _, Instruction.symbol_injective⟩
      rw [spelled_cons_of_some hc, List.count_cons, List.count_cons, ih, hsame]

/-- The beginnings of what is spelled are what the beginnings of the text spell. -/
theorem exists_take_spelled (text : List Char) (k : Nat) :
    ∃ n, spelled (text.take n) = (spelled text).take k := by
  induction text generalizing k with
  | nil => exact ⟨0, by simp [spelled]⟩
  | cons c rest ih =>
    cases hc : Instruction.ofSymbol? c with
    | none =>
      obtain ⟨n, hn⟩ := ih k
      refine ⟨n + 1, ?_⟩
      rw [List.take_succ_cons, spelled_cons_of_none hc, spelled_cons_of_none hc, hn]
    | some i =>
      cases k with
      | zero => exact ⟨0, rfl⟩
      | succ k =>
        obtain ⟨n, hn⟩ := ih k
        refine ⟨n + 1, ?_⟩
        rw [List.take_succ_cons, spelled_cons_of_some hc, spelled_cons_of_some hc,
          List.take_succ_cons, hn]

end Program

/-- The excess is what its name says. -/
theorem excess_eq_count (is : List Instruction) :
    excess is = is.count .loopOpen - is.count .loopClose := by
  induction is with
  | nil => rfl
  | cons i rest ih =>
    have hone : i.weight = ((if (i == .loopOpen) = true then 1 else 0 : Nat) : Int) -
        (if (i == .loopClose) = true then 1 else 0 : Nat) := by
      cases i <;> rfl
    rw [excess, ih, List.count_cons, List.count_cons]
    omega

namespace Program

variable {text : List Char}

theorem excess_spelled (text : List Char) :
    excess (spelled text) = text.count '[' - text.count ']' := by
  rw [excess_eq_count, count_spelled, count_spelled]
  rfl

theorem balanced_spelled_iff : Balanced (spelled text) ↔ Nested text := by
  constructor
  · intro h
    refine ⟨?_, fun n => ?_⟩
    · have hsettled := h.settled
      rw [excess_spelled] at hsettled
      omega
    · have hsplit : spelled text = spelled (text.take n) ++ spelled (text.drop n) := by
        rw [← spelled_append, List.take_append_drop]
      have hnonneg := h.nonneg (spelled (text.take n)).length
      rw [hsplit, List.take_left, excess_spelled] at hnonneg
      omega
  · intro h
    refine ⟨?_, fun k => ?_⟩
    · rw [excess_spelled, h.settled]
      omega
    · obtain ⟨n, hn⟩ := exists_take_spelled text k
      have hnonneg := h.nonneg n
      rw [← hn, excess_spelled]
      omega

end Program

namespace Interpreter

variable {source : String}

/-- A text is a program if there is an instruction in it and its brackets nest, and in no other
case. -/
theorem exists_read_iff :
    (∃ program jumps, read source = .ok (program, jumps)) ↔
      0 < Program.countSymbols source.toList ∧ Program.Nested source.toList := by
  rw [← Program.balanced_spelled_iff, ← Program.length_spelled]
  constructor
  · rintro ⟨program, jumps, h⟩
    obtain ⟨hprogram, hjumps⟩ := read_eq_ok h
    rw [← Program.instructions_eq_spelled hprogram, program.length_instructions]
    obtain ⟨i, hi⟩ := Program.exists_instruction?_zero hprogram
    exact ⟨Program.lt_size_of_instruction? hi, JumpTable.balanced_of_ofProgram hjumps⟩
  · rintro ⟨hpos, hbalanced⟩
    have hsymbols : Program.symbols source.toList ≠ [] := by
      intro hnil
      rw [Program.spelled, ← Program.filterMap_symbols, hnil] at hpos
      cases hpos
    obtain ⟨program, hprogram⟩ := Program.exists_ofSource hsymbols
    rw [← Program.instructions_eq_spelled hprogram] at hbalanced
    obtain ⟨jumps, hjumps⟩ := JumpTable.exists_ofProgram_iff.2 hbalanced
    exact ⟨program, jumps, by simp only [read, hprogram, hjumps]⟩

theorem summary_eq {program : Program} {jumps : JumpTable}
    (h : read source = .ok (program, jumps)) :
    summary program jumps =
      ⟨Program.countSymbols source.toList, source.toList.count '['⟩ := by
  obtain ⟨hprogram, hjumps⟩ := read_eq_ok h
  have hinstructions := Program.instructions_eq_spelled hprogram
  have hpairs := JumpTable.pairs_of_ofProgram hjumps
  rw [hinstructions, Program.count_spelled] at hpairs
  rw [summary, hpairs, ← program.length_instructions, hinstructions, Program.length_spelled]
  rfl

end Interpreter

end TapeMachine
