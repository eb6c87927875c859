import TapeMachine.Proofs.Lockstep

/-!
# TapeMachine.Proofs.Parallel

Two evaluations that go on side by side and end in ways that correspond to each other, although they
need not be the same.

* `Step.Matches`     — both steps lead on, or both end the evaluation in corresponding ways.
* `Machine.Parallel` — related machines make steps that match.
* `Machine.matches_advance` — one machine makes steps that match under two jobs, if both have the
  same instruction for it.
* `Parallel.run`     — with the same fuel both come to an end, or both run out of it. By induction
  on the fuel.
* `Parallel.after`, `Parallel.endsAfter` — the same, counted in steps.
-/

namespace TapeMachine

/-- Both steps lead on to related machines, or both end the evaluation. -/
inductive Step.Matches (E : Ending → Ending → Prop) (R : Machine → Machine → Prop) :
    Step → Step → Prop where
  | next {m m' : Machine} (h : R m m') : Matches E R (.next m) (.next m')
  | stop {ending ending' : Ending} {m m' : Machine} (he : E ending ending') (h : R m m') :
      Matches E R (.stop ending m) (.stop ending' m')

/-- Both evaluations have ended in corresponding ways, and left related machines. -/
structure Finish.Matches (E : Ending → Ending → Prop) (R : Machine → Machine → Prop)
    (f f' : Finish) : Prop where
  ending : E f.ending f'.ending
  machine : R f.machine f'.machine

namespace Machine

/-- Related machines make steps that match. -/
def Parallel (job job' : Job) (E : Ending → Ending → Prop) (R : Machine → Machine → Prop) : Prop :=
  ∀ m m', R m m' → Step.Matches E R (m.advance job) (m'.advance job')

variable {job job' : Job} {E : Ending → Ending → Prop} {R : Machine → Machine → Prop}
  {m m' m₁ m₁' final : Machine} {ending : Ending}

/-- The same instruction under the counter, which leads to the same place, makes the same step of a
machine. The jobs may differ in the ends of their evaluations, and in the failures of a step only as
far as they blame different characters. -/
theorem matches_advance (hmode : job'.mode = job.mode)
    (hi : job'.program.instruction? m.pc = job.program.instruction? m.pc)
    (hflow : ∀ i, job'.flow? m.pc m.tape.cell i = job.flow? m.pc m.tape.cell i)
    (hpending : ∀ ending, m.pending job = .error ending → E ending ending)
    (hbroken : E (.broken .unpairedBracket) (.broken .unpairedBracket))
    (htrouble : ∀ i trouble, job.program.instruction? m.pc = some i →
      E (.failed (Trouble.failure (job.site m.pc) trouble))
        (.failed (Trouble.failure (job'.site m.pc) trouble))) :
    Step.Matches E Eq (m.advance job) (m.advance job') := by
  have hsame : m.pending job' = m.pending job := by rw [pending_eq, pending_eq, hi]
  cases hp : m.pending job with
  | error ending =>
    rw [advance_of_pending_error hp, advance_of_pending_error (hsame.trans hp)]
    exact .stop (hpending ending hp) rfl
  | ok i =>
    rw [advance_of_pending hp, advance_of_pending (hsame.trans hp)]
    cases hf : job.flow? m.pc m.tape.cell i with
    | none =>
      rw [step, step, hflow, hf]
      exact .stop hbroken rfl
    | some flow =>
      obtain ⟨⟨m₁, trouble⟩, hstill, hs, hs'⟩ := steps_eq_conclude hmode hf ((hflow i).trans hf)
      rw [hs, hs']
      cases trouble with
      | none => exact .next rfl
      | some trouble =>
        have hfailed := htrouble i trouble (pending_eq_ok_iff.1 hp).1
        rw [← hstill.pc] at hfailed
        exact .stop hfailed rfl

theorem eq_of_matches {s s' : Step} (h : Step.Matches Eq Eq s s') : s = s' := by
  cases h with
  | next h => rw [h]
  | stop he h => rw [he, h]

/-- Lockstep without exceptions is parallel, with the same ends. -/
theorem Lockstep.parallel (hl : Lockstep job job' (fun _ => True) R) :
    Parallel job job' Eq R := by
  intro m m' h
  cases hs : m.advance job with
  | next m₁ =>
    obtain ⟨m₁', hs', h₁⟩ := hl.advance_next h hs
    rw [hs']
    exact .next h₁
  | stop ending m₁ =>
    obtain ⟨m₁', hs', h₁⟩ := hl.advance_stop h hs trivial
    rw [hs']
    exact .stop rfl h₁

namespace Parallel

variable (hp : Parallel job job' E R)

include hp

theorem proceed (h : R m m') (traced traced' : Bool) (fuel : Nat) (views views' : Array View) :
    Option.Rel (Finish.Matches E R) (m.proceed job traced fuel views)
      (m'.proceed job' traced' fuel views') := by
  induction fuel generalizing m m' views views' with
  | zero => exact .none
  | succ fuel ih =>
    rw [proceed_succ_eq, proceed_succ_eq]
    have hstep := hp m m' h
    revert hstep
    generalize m.advance job = s, m'.advance job' = s'
    intro hstep
    cases hstep with
    | next h₁ => exact ih h₁ _ _
    | stop he h₁ => exact .some ⟨he, h₁⟩

theorem run (hb : m.begin job = (m₁, none)) (hb' : m'.begin job' = (m₁', none)) (h : R m₁ m₁')
    (traced traced' : Bool) (fuel : Nat) :
    Option.Rel (Finish.Matches E R) (m.run job traced fuel) (m'.run job' traced' fuel) := by
  rw [run_of_begin hb, run_of_begin hb']
  exact hp.proceed h traced traced' fuel #[] #[]

theorem endless_iff (hb : m.begin job = (m₁, none)) (hb' : m'.begin job' = (m₁', none))
    (h : R m₁ m₁') (traced traced' : Bool) :
    m'.Endless job' traced' ↔ m.Endless job traced := by
  refine forall_congr' fun fuel => ?_
  have hrun := hp.run hb hb' h traced traced' fuel
  revert hrun
  generalize m.run job traced fuel = r, m'.run job' traced' fuel = r'
  intro hrun
  cases hrun with
  | none => exact Iff.rfl
  | some _ => exact ⟨nofun, nofun⟩

theorem after (h : R m m') (n : Nat) : Option.Rel R (m.after job n) (m'.after job' n) := by
  induction n generalizing m m' with
  | zero => exact .some h
  | succ n ih =>
    rw [Machine.after, Machine.after]
    have hstep := hp m m' h
    revert hstep
    generalize m.advance job = s, m'.advance job' = s'
    intro hstep
    cases hstep with
    | next h₁ => exact ih h₁
    | stop _ _ => exact .none

theorem endsAfter {n : Nat} (h : R m m') (he : EndsAfter job n m ending final) :
    ∃ ending' final', EndsAfter job' n m' ending' final' ∧ E ending ending' ∧ R final final' := by
  obtain ⟨last, hlast, hstop⟩ := he
  have hafter := hp.after h n
  rw [hlast] at hafter
  generalize hlast' : m'.after job' n = r at hafter
  cases hafter with
  | @some _ last' h₁ =>
    have hstep := hp last last' h₁
    rw [hstop] at hstep
    generalize hstop' : last'.advance job' = s at hstep
    cases hstep with
    | @stop _ ending' _ final' hending h₂ =>
      exact ⟨ending', final', ⟨last', hlast', hstop'⟩, hending, h₂⟩

end Parallel

end Machine

end TapeMachine
