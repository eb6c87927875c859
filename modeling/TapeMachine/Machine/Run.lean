import TapeMachine.Machine.Step

/-!
# TapeMachine.Machine.Run

Step after step until the evaluation is over.

* `Machine.proceed` — bounded by fuel; `none` means that the fuel ran out first. A program that
  runs for ever runs out of every amount of fuel.
* `Machine.run`     — the same after the header of the table, when there is a table.

More fuel does not change an outcome, `run_mono`.
-/

namespace TapeMachine

/-- The outcome of an evaluation: how it ended, the machine at the end and, if asked for, what
could be seen before every step that was attempted. -/
structure Finish where
  ending : Ending
  machine : Machine
  views : Array View

namespace Machine

/-- Carries out steps until the evaluation is over. Fuel is spent on every look at what is pending,
and there is one more look than there are steps that succeed. -/
def proceed (job : Job) (traced : Bool) : Nat → Array View → Machine → Option Finish
  | 0, _, _ => none
  | fuel + 1, views, m =>
    match m.pending job with
    | .error ending => some ⟨ending, m, views⟩
    | .ok i =>
      let views := if traced then views.push (m.view i) else views
      match m.step job i with
      | .next m => proceed job traced fuel views m
      | .stop ending m => some ⟨ending, m, views⟩

/-- Writes lines until one of them is refused. -/
def sendLines : List String → Machine → Machine × Option Trouble
  | [], m => (m, none)
  | line :: rest, m =>
    match m.sendBy (Output.writeLine line) with
    | (m, none) => sendLines rest m
    | (m, some trouble) => (m, some trouble)

def begin (job : Job) (m : Machine) : Machine × Option Trouble :=
  match job.mode with
  | .live => (m, none)
  | .table => m.sendLines Table.header

def run (job : Job) (traced : Bool) (fuel : Nat) (m : Machine) : Option Finish :=
  match m.begin job with
  | (m, none) => m.proceed job traced fuel #[]
  | (m, some trouble) => some ⟨.failed (trouble.failure (job.site m.pc)), m, #[]⟩

/-! ## Fuel -/

/-- More fuel does not change an outcome. -/
theorem proceed_succ {job : Job} {traced : Bool} {fuel : Nat} {views : Array View} {m : Machine}
    {f : Finish} (h : proceed job traced fuel views m = some f) :
    proceed job traced (fuel + 1) views m = some f := by
  induction fuel generalizing views m with
  | zero => cases h
  | succ fuel ih =>
    rw [proceed] at h ⊢
    cases hp : m.pending job with
    | error ending => simpa [hp] using h
    | ok i =>
      simp only [hp] at h ⊢
      cases hs : m.step job i with
      | next m' => simp only [hs] at h ⊢; exact ih h
      | stop ending m' => simpa [hs] using h

theorem proceed_mono {job : Job} {traced : Bool} {fuel more : Nat} {views : Array View}
    {m : Machine} {f : Finish} (hle : fuel ≤ more) (h : proceed job traced fuel views m = some f) :
    proceed job traced more views m = some f := by
  induction hle with
  | refl => exact h
  | step _ ih => exact proceed_succ ih

theorem run_mono {job : Job} {traced : Bool} {fuel more : Nat} {m : Machine} {f : Finish}
    (hle : fuel ≤ more) (h : run job traced fuel m = some f) : run job traced more m = some f := by
  unfold run at h ⊢
  split at h
  · exact proceed_mono hle h
  · exact h

end Machine

end TapeMachine
