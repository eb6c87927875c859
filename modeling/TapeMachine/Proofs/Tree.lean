import TapeMachine.Block
import TapeMachine.Proofs.Matching

/-!
# TapeMachine.Proofs.Tree

The tree of a program, and where its parts stand in the program.

* `Block.exists_ofInstructions?_iff` — the sequences that have a tree are those with balanced
  brackets.
* `Block.At`                         — a block stands in a program from some index on.
* `Block.At.plain`, `Block.At.loop`  — where the parts of a block stand, and which brackets of it
  belong together.
-/

namespace TapeMachine

theorem Balanced.excess_drop_nonpos {is : List Instruction} (h : Balanced is) (n : Nat) :
    excess (is.drop n) ≤ 0 := by
  have hsplit := congrArg excess (List.take_append_drop n is)
  have hn := h.nonneg n
  rw [excess_append, h.settled] at hsplit
  omega

namespace Block

/-- A sequence no end of which has more `[` than `]` comes apart into one block for every loop that
it ends and does not begin, and one more. -/
theorem exists_stack {is : List Instruction} (h : ∀ n, excess (is.drop n) ≤ 0) :
    ∃ blocks, stack is = some blocks ∧ (blocks.length : Int) = 1 - excess is := by
  induction is with
  | nil => exact ⟨[done], rfl, rfl⟩
  | cons i rest ih =>
    obtain ⟨blocks, hs, hlen⟩ := ih fun n => h (n + 1)
    have hhere : i.weight + excess rest ≤ 0 := h 0
    have hrest : excess rest ≤ 0 := h 1
    rw [stack, hs, Option.bind_some, excess]
    -- The length counts the loops that are ended and not begun, so that a `[` finds one to begin.
    cases blocks with
    | nil => simp at hlen; omega
    | cons first outer =>
      by_cases hb : i.isBracket = false
      · have hw := Instruction.weight_of_not_isBracket hb
        exact ⟨_, prepend_plain hb first outer, by simp at hlen ⊢; omega⟩
      · cases i with
        | loopClose =>
          exact ⟨_, prepend_loopClose first outer, by simp [Instruction.weight] at hlen ⊢; omega⟩
        | loopOpen =>
          cases outer with
          | nil => simp [Instruction.weight] at hlen hhere; omega
          | cons after outer =>
            exact ⟨_, prepend_loopOpen first after outer,
              by simp [Instruction.weight] at hlen ⊢; omega⟩
        | _ => exact absurd rfl hb

theorem exists_of_balanced {is : List Instruction} (h : Balanced is) :
    ∃ b, ofInstructions? is = some b := by
  obtain ⟨blocks, hs, hlen⟩ := exists_stack h.excess_drop_nonpos
  rw [h.settled] at hlen
  obtain ⟨b, rfl⟩ : ∃ b, blocks = [b] := List.length_eq_one_iff.1 (by omega)
  exact ⟨b, by rw [ofInstructions?, hs]⟩

/-- The sequences that a block writes out are those with balanced brackets. -/
theorem exists_ofInstructions?_iff {is : List Instruction} :
    (∃ b, ofInstructions? is = some b) ↔ Balanced is := by
  constructor
  · rintro ⟨b, h⟩
    rw [← ofInstructions?_eq_some_iff.1 h]
    exact b.balanced_instructions
  · exact exists_of_balanced

/-! ## Places in a program -/

/-- The block stands in the program, from the index `ip` on. -/
def At (p : Program) (ip : Nat) (b : Block) : Prop :=
  b.instructions <+: p.instructions.drop ip

theorem drop_of_append_prefix {xs ys is : List Instruction} {ip : Nat}
    (h : xs ++ ys <+: is.drop ip) : xs <+: is.drop ip ∧ ys <+: is.drop (ip + xs.length) := by
  refine ⟨(List.prefix_append xs ys).trans h, ?_⟩
  obtain ⟨zs, hzs⟩ := h
  rw [← List.drop_drop, ← hzs, List.append_assoc, List.drop_left]
  exact List.prefix_append ys zs

theorem getElem?_of_cons_prefix {i : Instruction} {xs is : List Instruction} {ip : Nat}
    (h : i :: xs <+: is.drop ip) : is[ip]? = some i ∧ xs <+: is.drop (ip + 1) := by
  have hsplit : [i] ++ xs <+: is.drop ip := h
  obtain ⟨⟨zs, hzs⟩, hxs⟩ := drop_of_append_prefix hsplit
  refine ⟨?_, hxs⟩
  have hget : (is.drop ip)[0]? = is[ip]? := List.getElem?_drop
  rw [← hget, ← hzs]
  rfl

namespace At

variable {p : Program} {ip : Nat} {body rest : Block} {i : Instruction}

theorem plain {h : i.isBracket = false} (hat : At p ip (plain i h rest)) :
    p.instruction? ip = some i ∧ At p (ip + 1) rest := by
  obtain ⟨hi, hrest⟩ := getElem?_of_cons_prefix hat
  exact ⟨(p.instruction?_eq_getElem? ip).trans hi, hrest⟩

theorem loop (hat : At p ip (loop body rest)) :
    Paired p.instructions ip (ip + 1 + body.size) ∧ At p (ip + 1) body ∧
      At p (ip + body.size + 2) rest := by
  have hall : .loopOpen :: (body.instructions ++ .loopClose :: rest.instructions) <+:
      p.instructions.drop ip := by simpa [At, instructions] using hat
  obtain ⟨hopen, hinner⟩ := getElem?_of_cons_prefix hall
  obtain ⟨hbody, houter⟩ := drop_of_append_prefix hinner
  rw [length_instructions] at houter
  obtain ⟨hclose, hrest⟩ := getElem?_of_cons_prefix houter
  refine ⟨⟨hopen, hclose, by omega, ?_⟩, hbody, ?_⟩
  · have hseg : segment p.instructions (ip + 1) (ip + 1 + body.size) = body.instructions := by
      rw [segment, List.drop_take, Nat.add_sub_cancel_left, ← length_instructions]
      exact (List.prefix_iff_eq_take.1 hbody).symm
    rw [hseg]
    exact body.balanced_instructions
  · rwa [show ip + body.size + 2 = ip + 1 + body.size + 1 by omega]

end At

theorem at_zero {p : Program} {b : Block} (h : ofInstructions? p.instructions = some b) :
    At p 0 b ∧ b.size = p.size := by
  have hb := ofInstructions?_eq_some_iff.1 h
  rw [At, hb, List.drop_zero, ← length_instructions, hb, p.length_instructions]
  exact ⟨List.prefix_refl _, rfl⟩

end Block

end TapeMachine
