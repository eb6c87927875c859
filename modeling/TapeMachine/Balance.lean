import TapeMachine.Instruction

/-!
# TapeMachine.Balance

Balanced brackets, said without any matching of pairs: the two kinds of bracket occur equally
often, and no beginning holds more `]` than `[`.

* `excess`   — by how much the `[` outnumber the `]`.
* `Balanced` — the excess is zero at the end and never negative on the way.
* `Balanced.append`, `Balanced.loop` — balanced sequences can be joined and put into a loop.
-/

namespace TapeMachine

def Instruction.weight : Instruction → Int
  | .loopOpen => 1
  | .loopClose => -1
  | _ => 0

def Instruction.isBracket : Instruction → Bool
  | .loopOpen => true
  | .loopClose => true
  | _ => false

/-- By how much the `[` outnumber the `]`. -/
def excess : List Instruction → Int
  | [] => 0
  | i :: rest => i.weight + excess rest

/-- Brackets that can be paired off. -/
structure Balanced (is : List Instruction) : Prop where
  settled : excess is = 0
  /-- No beginning has more `]` than `[`. -/
  nonneg : ∀ n, 0 ≤ excess (is.take n)

@[simp] theorem excess_append (is js : List Instruction) :
    excess (is ++ js) = excess is + excess js := by
  induction is with
  | nil => simp [excess]
  | cons i rest ih => simp [excess, ih]; omega

theorem Instruction.weight_of_not_isBracket {i : Instruction} (h : i.isBracket = false) :
    i.weight = 0 := by
  cases i <;> first | rfl | simp [isBracket] at h

namespace Balanced

theorem nil : Balanced [] where
  settled := rfl
  nonneg n := by simp [excess]

theorem append {is js : List Instruction} (hi : Balanced is) (hj : Balanced js) :
    Balanced (is ++ js) where
  settled := by rw [excess_append, hi.settled, hj.settled]; rfl
  nonneg n := by
    rw [List.take_append, excess_append]
    have := hi.nonneg n
    have := hj.nonneg (n - is.length)
    omega

theorem plain {i : Instruction} (h : i.isBracket = false) : Balanced [i] where
  settled := by simp [excess, Instruction.weight_of_not_isBracket h]
  nonneg n := by cases n <;> simp [excess, Instruction.weight_of_not_isBracket h]

theorem loop {is : List Instruction} (h : Balanced is) :
    Balanced (.loopOpen :: is ++ [.loopClose]) where
  settled := by simp [excess, h.settled, Instruction.weight]
  nonneg n := by
    cases n with
    | zero => simp [excess]
    | succ n =>
      have := h.nonneg n
      rw [List.cons_append, List.take_succ_cons, List.take_append, excess, excess_append]
      cases n - is.length with
      | zero => simp [excess, Instruction.weight]; omega
      | succ k => simp [excess, Instruction.weight]; omega

end Balanced

end TapeMachine
