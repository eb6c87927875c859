import TapeMachine.Block
import TapeMachine.Machine.Run

/-!
# TapeMachine.Block.Eval

Blocks evaluated without a counter: the items of a block in order, and a loop by repeating its body
while the cell under the pointer is not zero.

* `Block.eval` — bounded by fuel; `none` means that the fuel ran out first. The place of the block
  is needed only for the reports of failures.
* `Step.observed`, `Finish.observed` — what can be told of an evaluation when it is over, with and
  without a counter.

A loop that is not entered costs one step. A round costs two steps besides those of the body, one
before it and one behind it, whether another round follows or not.
-/

namespace TapeMachine

def Machine.tick (m : Machine) : Machine := { m with steps := m.steps + 1 }

namespace Block

/-- Evaluates a block of a program, the first instruction of which has the index `ip`. -/
def eval (p : Program) : Nat → Nat → Block → Machine → Option Step
  | 0, _, _, _ => none
  | _ + 1, _, done, m => some (.next m)
  | fuel + 1, ip, plain i _ rest, m =>
    match m.perform i with
    | (m, none) => eval p fuel (ip + 1) rest m.tick
    | (m, some trouble) => some (.stop (.failed (trouble.failure ⟨ip, p.locate ip⟩)) m)
  | fuel + 1, ip, loop body rest, m =>
    if m.tape.cell = 0 then eval p fuel (ip + body.size + 2) rest m.tick
    else
      match eval p fuel (ip + 1) body m.tick with
      | some (.next m) =>
        if m.tape.cell = 0 then eval p fuel (ip + body.size + 2) rest m.tick
        else eval p fuel ip (loop body rest) m.tick
      | outcome => outcome

section Equations

variable {p : Program} {fuel ip : Nat} {i : Instruction} {hi : i.isBracket = false}
  {body rest : Block} {m m' : Machine}

theorem eval_plain_next (h : m.perform i = (m', none)) :
    eval p (fuel + 1) ip (plain i hi rest) m = eval p fuel (ip + 1) rest m'.tick := by
  rw [eval, h]

theorem eval_plain_stop {trouble : Trouble} (h : m.perform i = (m', some trouble)) :
    eval p (fuel + 1) ip (plain i hi rest) m =
      some (.stop (.failed (trouble.failure ⟨ip, p.locate ip⟩)) m') := by
  rw [eval, h]

theorem eval_loop_skip (hz : m.tape.cell = 0) :
    eval p (fuel + 1) ip (loop body rest) m = eval p fuel (ip + body.size + 2) rest m.tick := by
  rw [eval, if_pos hz]

theorem eval_loop_stop {ending : Ending} (hz : m.tape.cell ≠ 0)
    (h : eval p fuel (ip + 1) body m.tick = some (.stop ending m')) :
    eval p (fuel + 1) ip (loop body rest) m = some (.stop ending m') := by
  rw [eval, if_neg hz, h]

/-- The last round, with a step before the body and a step behind it. -/
theorem eval_loop_last (hz : m.tape.cell ≠ 0)
    (h : eval p fuel (ip + 1) body m.tick = some (.next m')) (hz' : m'.tape.cell = 0) :
    eval p (fuel + 1) ip (loop body rest) m = eval p fuel (ip + body.size + 2) rest m'.tick := by
  rw [eval, if_neg hz, h]
  simp only [hz', if_true]

theorem eval_loop_again (hz : m.tape.cell ≠ 0)
    (h : eval p fuel (ip + 1) body m.tick = some (.next m')) (hz' : m'.tape.cell ≠ 0) :
    eval p (fuel + 1) ip (loop body rest) m = eval p fuel ip (loop body rest) m'.tick := by
  rw [eval, if_neg hz, h]
  simp only [hz', if_false]

end Equations

theorem eval_succ {p : Program} {fuel ip : Nat} {b : Block} {m : Machine} {s : Step}
    (h : eval p fuel ip b m = some s) : eval p (fuel + 1) ip b m = some s := by
  induction fuel generalizing ip b m s with
  | zero => cases h
  | succ fuel ih =>
    cases b with
    | done => exact h
    | plain i isPlain rest =>
      rw [eval] at h ⊢
      cases hp : m.perform i with
      | mk m' trouble =>
        cases trouble with
        | none => simp only [hp] at h ⊢; exact ih h
        | some trouble => simpa only [hp] using h
    | loop body rest =>
      rw [eval] at h ⊢
      by_cases hz : m.tape.cell = 0
      · simp only [hz, if_true] at h ⊢; exact ih h
      · simp only [hz, if_false] at h ⊢
        cases hb : eval p fuel (ip + 1) body m.tick with
        | none => simp [hb] at h
        | some outcome =>
          rw [ih hb]
          cases outcome with
          | next m' =>
            by_cases hz' : m'.tape.cell = 0
            · simp only [hb, hz', if_true] at h ⊢; exact ih h
            · simp only [hb, hz', if_false] at h ⊢; exact ih h
          | stop ending m' => simpa only [hb] using h

theorem eval_mono {p : Program} {fuel more ip : Nat} {b : Block} {m : Machine} {s : Step}
    (hle : fuel ≤ more) (h : eval p fuel ip b m = some s) : eval p more ip b m = some s := by
  induction hle with
  | refl => exact h
  | step _ ih => exact eval_succ ih

end Block

/-! ## Outcomes -/

/-- What can be told of an evaluation when it is over. -/
structure Observed where
  ending : Ending
  tape : Tape
  steps : Nat
  input : Input
  output : Output

def Machine.observed (ending : Ending) (m : Machine) : Observed :=
  ⟨ending, m.tape, m.steps, m.input, m.output⟩

def Step.observed : Step → Observed
  | next m => m.observed .finished
  | stop ending m => m.observed ending

def Finish.observed (f : Finish) : Observed := f.machine.observed f.ending

end TapeMachine
