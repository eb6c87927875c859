import TapeMachine.Balance

/-!
# TapeMachine.Block

Programs as trees: a block is a sequence of plain instructions and of loops, which hold blocks.

* `Block.instructions`    — the block written out, with brackets around the loops.
* `Block.ofInstructions?` — the block that a sequence of instructions writes out.
* `Block.ofInstructions?_eq_some_iff` — the two are inverse to each other, so that a sequence is
  that of at most one block.
-/

namespace TapeMachine

inductive Block where
  | done
  | plain (i : Instruction) (isPlain : i.isBracket = false) (rest : Block)
  | loop (body rest : Block)

namespace Block

def instructions : Block → List Instruction
  | done => []
  | plain i _ rest => i :: rest.instructions
  | loop body rest => .loopOpen :: body.instructions ++ .loopClose :: rest.instructions

def size : Block → Nat
  | done => 0
  | plain _ _ rest => rest.size + 1
  | loop body rest => body.size + rest.size + 2

theorem length_instructions (b : Block) : b.instructions.length = b.size := by
  induction b with
  | done => rfl
  | plain i h rest ih => simp [instructions, size, ih]
  | loop body rest ihb ihr => simp [instructions, size, ihb, ihr]; omega

/-- Puts an instruction in front of the blocks of a sequence: the first is what follows up to the
end of the innermost loop around the place, the next what follows that loop, and so on. -/
def prepend (i : Instruction) : List Block → Option (List Block)
  | [] => none
  | first :: outer =>
    if h : i.isBracket = false then some (plain i h first :: outer)
    else if i = .loopClose then some (done :: first :: outer)
    else
      match outer with
      | [] => none
      | rest :: outer => some (loop first rest :: outer)

/-- The blocks of a sequence that ends loops it does not begin, the innermost first. -/
def stack : List Instruction → Option (List Block)
  | [] => some [done]
  | i :: rest => (stack rest).bind (prepend i)

/-- The block that a sequence of instructions writes out, if there is one. -/
def ofInstructions? (is : List Instruction) : Option Block :=
  match stack is with
  | some [b] => some b
  | _ => none

/-- What stands behind the first of the blocks of a sequence, written out. -/
def outside : List Block → List Instruction
  | [] => []
  | b :: outer => .loopClose :: b.instructions ++ outside outer

def written : List Block → List Instruction
  | [] => []
  | b :: outer => b.instructions ++ outside outer

theorem written_prepend {i : Instruction} {blocks blocks' : List Block}
    (h : prepend i blocks = some blocks') : written blocks' = i :: written blocks := by
  cases blocks with
  | nil => cases h
  | cons first outer =>
    simp only [prepend] at h
    split at h
    · cases h; simp [written, instructions]
    · rename_i hb
      split at h
      · rename_i hi
        cases h
        simp [hi, written, outside, instructions]
      · rename_i hc
        have hi : i = .loopOpen := by cases i <;> simp_all [Instruction.isBracket]
        split at h
        · cases h
        · cases h
          simp [hi, written, outside, instructions]

theorem written_stack {is : List Instruction} {blocks : List Block}
    (h : stack is = some blocks) : written blocks = is := by
  induction is generalizing blocks with
  | nil => cases h; rfl
  | cons i rest ih =>
    obtain ⟨blocks', hs, hp⟩ := Option.bind_eq_some_iff.1 h
    rw [written_prepend hp, ih hs]

theorem prepend_plain {i : Instruction} (h : i.isBracket = false) (b : Block)
    (outer : List Block) : prepend i (b :: outer) = some (plain i h b :: outer) := by
  simp [prepend, h]

theorem prepend_loopClose (first : Block) (outer : List Block) :
    prepend .loopClose (first :: outer) = some (done :: first :: outer) := by
  simp [prepend, Instruction.isBracket]

theorem prepend_loopOpen (body rest : Block) (outer : List Block) :
    prepend .loopOpen (body :: rest :: outer) = some (loop body rest :: outer) := by
  simp [prepend, Instruction.isBracket]

def append : Block → Block → Block
  | done, c => c
  | plain i h rest, c => plain i h (rest.append c)
  | loop body rest, c => loop body (rest.append c)

theorem append_done (b : Block) : b.append done = b := by
  induction b with
  | done => rfl
  | plain i h rest ih => simp [append, ih]
  | loop body rest _ ih => simp [append, ih]

theorem stack_instructions_append (b : Block) {is : List Instruction} {c : Block}
    {outer : List Block} (h : stack is = some (c :: outer)) :
    stack (b.instructions ++ is) = some (b.append c :: outer) := by
  induction b generalizing is c outer with
  | done => simpa [instructions, append] using h
  | plain i hi rest ih =>
    simp [instructions, stack, ih h, prepend_plain hi, append]
  | loop body rest ihb ihr =>
    have hclose : stack (.loopClose :: (rest.instructions ++ is)) =
        some (done :: rest.append c :: outer) := by
      simp [stack, ihr h, prepend_loopClose]
    simp [instructions, stack, ihb hclose, append_done, prepend_loopOpen, append]

theorem ofInstructions?_eq_some_iff {is : List Instruction} {b : Block} :
    ofInstructions? is = some b ↔ b.instructions = is := by
  constructor
  · intro h
    unfold ofInstructions? at h
    split at h
    · rename_i hs
      cases h
      simpa [written, outside] using written_stack hs
    · cases h
  · intro h
    subst h
    have := stack_instructions_append b (show stack [] = some [done] from rfl)
    simp only [List.append_nil, append_done] at this
    simp [ofInstructions?, this]

theorem balanced_instructions (b : Block) : Balanced b.instructions := by
  induction b with
  | done => exact .nil
  | plain i h rest ih => exact (Balanced.plain h).append ih
  | loop body rest ihb ihr =>
    have := ihb.loop.append ihr
    simpa [instructions] using this

end Block

end TapeMachine
