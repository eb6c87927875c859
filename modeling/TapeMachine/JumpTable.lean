import TapeMachine.Program

/-!
# TapeMachine.JumpTable

The table that pairs every `[` with its `]`, built once before a program runs.

* `JumpTable.Scan`      — what a scan from left to right knows: the pairs found so far and the
  openings still waiting for their `]`, innermost first.
* `JumpTable.ofProgram` — the table of a program, or the bracket that has no partner. A `]`
  without partner is reported as soon as it is met; of the `[` still open at the end the oldest
  is reported.
* `JumpTable.target?`   — the partner of a bracket.
-/

namespace TapeMachine

/-- The partner of every bracket, by index, and the number of loops. -/
structure JumpTable where
  targets : Array (Option Nat)
  pairs : Nat
  deriving DecidableEq

namespace JumpTable

/-- The table without loops, which is what a machine holds before it loads a program. -/
def empty : JumpTable := ⟨#[], 0⟩

/-- The partner of the bracket at an index; `none` for every other instruction and past the end. -/
def target? (t : JumpTable) (index : Nat) : Option Nat := t.targets[index]?.join

/-- Every pair in both directions, in the order of the first component. -/
def entries (t : JumpTable) : List (Nat × Nat) :=
  t.targets.toList.zipIdx.filterMap fun (target, index) => target.map (index, ·)

structure Scan where
  targets : Array (Option Nat)
  pairs : Nat
  /-- The indices of the `[` still open, innermost first. -/
  waiting : List Nat

namespace Scan

def start (size : Nat) : Scan := ⟨Array.replicate size none, 0, []⟩

def visit (index : Nat) (placed : Placed) : Scan → Except Rejection Scan
  | ⟨targets, pairs, waiting⟩ =>
    match placed.instruction with
    | .loopOpen => .ok ⟨targets, pairs, index :: waiting⟩
    | .loopClose =>
      match waiting with
      | [] => .error (.unmatchedClose (index + 1) placed.offset)
      | opening :: outer =>
        .ok ⟨(targets.setIfInBounds opening (some index)).setIfInBounds index (some opening),
          pairs + 1, outer⟩
    | _ => .ok ⟨targets, pairs, waiting⟩

def visitAll : Nat → List Placed → Scan → Except Rejection Scan
  | _, [], s => .ok s
  | index, placed :: rest, s =>
    match s.visit index placed with
    | .ok s => visitAll (index + 1) rest s
    | .error r => .error r

end Scan

def ofProgram (p : Program) : Except Rejection JumpTable :=
  match Scan.visitAll 0 p.code.toList (Scan.start p.size) with
  | .error r => .error r
  | .ok s =>
    match s.waiting.getLast? with
    | some opening => .error (.unmatchedOpen (opening + 1) (p.locate opening))
    | none => .ok ⟨s.targets, s.pairs⟩

end JumpTable

end TapeMachine
