import TapeMachine.Proofs.Course

/-!
# TapeMachine.Proofs.Lockstep

Two evaluations that go on side by side.

* `Machine.Endless`  — an evaluation that comes to no end, whatever the fuel.
* `Machine.Lockstep` — a relation between machines that a step of both keeps. It may make an
  exception for ways to end that do not count: then the second machine may go on.
* `Lockstep.after`, `Lockstep.endsAfter` — as many steps of the one as of the other, and the same
  end.
* `Lockstep.runsTo`, `Lockstep.endless`, `Lockstep.endless_iff` — the same for whole evaluations.
-/

namespace TapeMachine

namespace Machine

/-- The evaluation comes to no end: whatever the fuel, it runs out. -/
def Endless (job : Job) (traced : Bool) (m : Machine) : Prop :=
  ∀ fuel, m.run job traced fuel = none

/-- Machines that are related have the same pending, and remain related when both make the step. If
the step of the first ends the evaluation in a way that counts, so does that of the second. -/
structure Lockstep (job job' : Job) (counts : Ending → Prop) (R : Machine → Machine → Prop) :
    Prop where
  pending : ∀ {m m'}, R m m' → m'.pending job' = m.pending job
  next : ∀ {m m' m₁ i}, R m m' → m.step job i = .next m₁ →
    ∃ m₁', m'.step job' i = .next m₁' ∧ R m₁ m₁'
  stop : ∀ {m m' m₁ i ending}, R m m' → m.step job i = .stop ending m₁ → counts ending →
    ∃ m₁', m'.step job' i = .stop ending m₁' ∧ R m₁ m₁'

variable {job job' : Job} {traced traced' : Bool} {m m' m₁ m₁' final : Machine} {ending : Ending}
  {n : Nat}

/-! ## Evaluations from their beginning -/

theorem run_of_begin (hb : m.begin job = (m₁, none)) (fuel : Nat) :
    m.run job traced fuel = m₁.proceed job traced fuel #[] := by
  rw [run, hb]

/-- Behind the lines above the table, if there is a table, an evaluation consists of its steps. -/
theorem runsTo_iff_of_begin (hb : m.begin job = (m₁, none)) :
    RunsTo job traced m ending final ↔ ∃ n, EndsAfter job n m₁ ending final := by
  simp only [RunsTo, run_of_begin hb]
  exact proceed_iff

theorem endless_iff_not_runsTo :
    m.Endless job traced ↔ ∀ ending final, ¬m.RunsTo job traced ending final := by
  constructor
  · rintro h ending final ⟨fuel, views, hrun⟩
    rw [h fuel] at hrun
    cases hrun
  · intro h fuel
    refine Option.eq_none_iff_forall_ne_some.2 fun f hf => ?_
    exact h f.ending f.machine ⟨fuel, f.views, hf⟩

/-- An evaluation comes to no end if there is always another step. -/
theorem endless_iff_of_begin (hb : m.begin job = (m₁, none)) :
    m.Endless job traced ↔ ∀ n, m₁.after job n ≠ none := by
  rw [endless_iff_not_runsTo]
  simp only [runsTo_iff_of_begin hb]
  constructor
  · intro h n hn
    obtain ⟨k, _, ending, final, he⟩ := exists_endsAfter hn
    exact h ending final ⟨k, he⟩
  · rintro h ending final ⟨n, last, hlast, hstop⟩
    refine h (n + 1) ?_
    rw [after_add hlast 1, after, hstop]

theorem endless_iff_of_after (hlive : job.mode = .live) (h : m.after job n = some m') :
    m.Endless job traced ↔ m'.Endless job traced := by
  rw [endless_iff_not_runsTo, endless_iff_not_runsTo]
  simp only [runsTo_iff hlive]
  constructor
  · rintro hm ending final ⟨k, he⟩
    exact hm ending final ⟨n + k, .of_after h he⟩
  · rintro hm' ending final ⟨k, he⟩
    obtain ⟨l, _, hl⟩ := he.drop h
    exact hm' ending final ⟨l, hl⟩

/-! ## Side by side -/

namespace Lockstep

variable {counts : Ending → Prop} {R : Machine → Machine → Prop}
  (hl : Lockstep job job' counts R)

include hl

theorem advance_next (h : R m m') (hs : m.advance job = .next m₁) :
    ∃ m₁', m'.advance job' = .next m₁' ∧ R m₁ m₁' := by
  obtain ⟨i, hi, hstep⟩ := Machine.advance_next hs
  obtain ⟨m₁', hstep', h₁⟩ := hl.next h hstep
  have hi' : m'.pending job' = .ok i := (hl.pending h).trans hi
  exact ⟨m₁', (advance_of_pending hi').trans hstep', h₁⟩

theorem advance_stop (h : R m m') (hs : m.advance job = .stop ending m₁) (hc : counts ending) :
    ∃ m₁', m'.advance job' = .stop ending m₁' ∧ R m₁ m₁' := by
  rcases Machine.advance_stop hs with ⟨hp, rfl⟩ | ⟨i, hi, hstep⟩
  · exact ⟨m', advance_of_pending_error ((hl.pending h).trans hp), h⟩
  · obtain ⟨m₁', hstep', h₁⟩ := hl.stop h hstep hc
    have hi' : m'.pending job' = .ok i := (hl.pending h).trans hi
    exact ⟨m₁', (advance_of_pending hi').trans hstep', h₁⟩

theorem after (h : R m m') (hn : m.after job n = some m₁) :
    ∃ m₁', m'.after job' n = some m₁' ∧ R m₁ m₁' :=
  after_follows hl.advance_next h hn

theorem endsAfter (h : R m m') (he : EndsAfter job n m ending final) (hc : counts ending) :
    ∃ final', EndsAfter job' n m' ending final' ∧ R final final' := by
  obtain ⟨last, hlast, hstop⟩ := he
  obtain ⟨last', hlast', h₁⟩ := hl.after h hlast
  obtain ⟨final', hstop', h₂⟩ := hl.advance_stop h₁ hstop hc
  exact ⟨final', ⟨last', hlast', hstop'⟩, h₂⟩

theorem runsTo (hb : m.begin job = (m₁, none)) (hb' : m'.begin job' = (m₁', none)) (h : R m₁ m₁')
    (hrun : m.RunsTo job traced ending final) (hc : counts ending) :
    ∃ final', m'.RunsTo job' traced' ending final' ∧ R final final' := by
  obtain ⟨n, he⟩ := (runsTo_iff_of_begin hb).1 hrun
  obtain ⟨final', he', h'⟩ := hl.endsAfter h he hc
  exact ⟨final', (runsTo_iff_of_begin hb').2 ⟨n, he'⟩, h'⟩

theorem endless (hb : m.begin job = (m₁, none)) (hb' : m'.begin job' = (m₁', none)) (h : R m₁ m₁')
    (hendless : m.Endless job traced) : m'.Endless job' traced' := by
  rw [endless_iff_of_begin hb] at hendless
  rw [endless_iff_of_begin hb']
  intro n hn
  obtain ⟨m₂, hm₂⟩ := Option.ne_none_iff_exists'.1 (hendless n)
  obtain ⟨m₂', hm₂', _⟩ := hl.after h hm₂
  rw [hm₂'] at hn
  cases hn

/-- If the first evaluation, should it come to an end, comes to one that counts, then the second
goes on for ever exactly if the first does. -/
theorem endless_iff (hb : m.begin job = (m₁, none)) (hb' : m'.begin job' = (m₁', none))
    (h : R m₁ m₁') (hc : ∀ ending final, m.RunsTo job traced ending final → counts ending) :
    m'.Endless job' traced' ↔ m.Endless job traced := by
  refine ⟨fun hendless => ?_, hl.endless hb hb' h⟩
  rw [endless_iff_not_runsTo] at hendless ⊢
  intro ending final hrun
  obtain ⟨final', hrun', _⟩ := hl.runsTo hb hb' h hrun (hc ending final hrun)
  exact hendless ending final' hrun'

end Lockstep

end Machine

end TapeMachine
