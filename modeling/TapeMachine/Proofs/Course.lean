import TapeMachine.Proofs.Control

/-!
# TapeMachine.Proofs.Course

The course of an evaluation, step by step and without fuel.

* `Machine.advance`   — one look at the machine: the next step, or the end.
* `Machine.after`     — the machine after a number of steps.
* `Machine.EndsAfter` — the evaluation ends after a number of steps. There is at most one such
  number and one such end, `EndsAfter.unique`.
* `Machine.proceed_iff` — the evaluation bounded by fuel ends if and only if it ends after some
  number of steps.
* `Machine.RunsTo`    — what `run` comes to, given enough fuel.

Others may set or clear the flag of the control while a machine runs, which the evaluation by
itself does not show:

* `Machine.Call`      — one call of `run`, the flag being set and cleared by others at any moment.
* `Machine.Reachable` — what a machine can become in the course of any number of such calls.
-/

namespace TapeMachine

namespace Machine

/-- One look at the machine: a step, or how the evaluation ends. -/
def advance (job : Job) (m : Machine) : Step :=
  match m.pending job with
  | .error ending => .stop ending m
  | .ok i => m.step job i

/-- The machine after `n` steps, unless the evaluation ends earlier. -/
def after (job : Job) : Nat → Machine → Option Machine
  | 0, m => some m
  | n + 1, m =>
    match m.advance job with
    | .next m => after job n m
    | .stop _ _ => none

/-- After `n` steps the evaluation ends, and leaves the machine `m'`. -/
def EndsAfter (job : Job) (n : Nat) (m : Machine) (ending : Ending) (m' : Machine) : Prop :=
  ∃ last, m.after job n = some last ∧ last.advance job = .stop ending m'

/-- The views that are kept when one more look is taken. -/
def record (job : Job) (traced : Bool) (m : Machine) (views : Array View) : Array View :=
  match m.pending job with
  | .error _ => views
  | .ok i => if traced then views.push (m.view i) else views

variable {job : Job} {n k : Nat} {m m' m'' : Machine} {ending ending' : Ending}

/-! ## Numbers of steps -/

theorem after_succ (h : m.advance job = .next m') : m.after job (n + 1) = m'.after job n := by
  rw [after, h]

theorem exists_of_after_succ (h : m.after job (n + 1) = some m') :
    ∃ m₁, m.advance job = .next m₁ ∧ m₁.after job n = some m' := by
  cases hs : m.advance job with
  | next m₁ => exact ⟨m₁, rfl, (after_succ hs).symm.trans h⟩
  | stop e m₁ =>
    rw [after, hs] at h
    cases h

theorem after_one (h : m.advance job = .next m') : m.after job 1 = some m' := after_succ h

theorem after_add (h : m.after job n = some m') (k : Nat) :
    m.after job (n + k) = m'.after job k := by
  induction n generalizing m with
  | zero => cases h; rw [Nat.zero_add]
  | succ n ih =>
    obtain ⟨m₁, hs, hrest⟩ := exists_of_after_succ h
    rw [Nat.succ_add, after_succ hs]
    exact ih hrest

/-- Steps that succeed pass through what is on the way. -/
theorem exists_of_after_add (h : m.after job (n + k) = some m') :
    ∃ m₁, m.after job n = some m₁ ∧ m₁.after job k = some m' := by
  induction n generalizing m with
  | zero =>
    rw [Nat.zero_add] at h
    exact ⟨m, rfl, h⟩
  | succ n ih =>
    rw [Nat.succ_add] at h
    obtain ⟨m₂, hs, hrest⟩ := exists_of_after_succ h
    obtain ⟨m₁, hn, hk⟩ := ih hrest
    exact ⟨m₁, (after_succ hs).trans hn, hk⟩

theorem after_keeps {P : Machine → Prop}
    (hstep : ∀ m m', P m → m.advance job = .next m' → P m') (hm : P m)
    (h : m.after job n = some m') : P m' := by
  induction n generalizing m with
  | zero => cases h; exact hm
  | succ n ih =>
    obtain ⟨m₁, hs, hrest⟩ := exists_of_after_succ h
    exact ih (hstep m m₁ hm hs) hrest

/-- Another machine follows any number of steps if it follows every single one. -/
theorem after_follows {job' : Job} {R : Machine → Machine → Prop} {m₁ : Machine}
    (hstep : ∀ {m m' m₁}, R m m₁ → m.advance job = .next m' →
      ∃ m₁', m₁.advance job' = .next m₁' ∧ R m' m₁')
    (hm : R m m₁) (h : m.after job n = some m') :
    ∃ m₁', m₁.after job' n = some m₁' ∧ R m' m₁' := by
  induction n generalizing m m₁ with
  | zero =>
    cases h
    exact ⟨m₁, rfl, hm⟩
  | succ n ih =>
    obtain ⟨m₂, hs, hrest⟩ := exists_of_after_succ h
    obtain ⟨m₃, hs', h₃⟩ := hstep hm hs
    obtain ⟨m₁', hrest', h₁'⟩ := ih h₃ hrest
    exact ⟨m₁', (after_succ hs').trans hrest', h₁'⟩

theorem after_map {job' : Job} {f : Machine → Machine}
    (hstep : ∀ {m m'}, m.advance job = .next m' → (f m).advance job' = .next (f m'))
    (h : m.after job n = some m') : (f m).after job' n = some (f m') := by
  have hfollows : ∃ m₁', (f m).after job' n = some m₁' ∧ f m' = m₁' := by
    refine after_follows (R := fun m m₁ => f m = m₁) ?_ rfl h
    rintro m m' _ rfl hs
    exact ⟨f m', hstep hs, rfl⟩
  obtain ⟨_, hafter, rfl⟩ := hfollows
  exact hafter

namespace EndsAfter

theorem zero (h : m.advance job = .stop ending m') : EndsAfter job 0 m ending m' := ⟨m, rfl, h⟩

theorem of_after (h : m.after job n = some m') (he : EndsAfter job k m' ending m'') :
    EndsAfter job (n + k) m ending m'' := by
  obtain ⟨last, hk, hlast⟩ := he
  exact ⟨last, (after_add h k).trans hk, hlast⟩

theorem succ (h : m.advance job = .next m') (he : EndsAfter job n m' ending m'') :
    EndsAfter job (n + 1) m ending m'' := by
  rw [Nat.add_comm]
  exact of_after (after_one h) he

/-- An evaluation that can make a step ends some steps later. -/
theorem of_next (he : EndsAfter job n m ending m'') (h : m.advance job = .next m') :
    ∃ k, n = k + 1 ∧ EndsAfter job k m' ending m'' := by
  obtain ⟨last, hn, hlast⟩ := he
  cases n with
  | zero =>
    cases hn
    rw [h] at hlast
    cases hlast
  | succ n => exact ⟨n, rfl, last, (after_succ h).symm.trans hn, hlast⟩

theorem drop (he : EndsAfter job n m ending m'') (h : m.after job k = some m') :
    ∃ l, n = k + l ∧ EndsAfter job l m' ending m'' := by
  induction k generalizing m n with
  | zero => cases h; exact ⟨n, (Nat.zero_add n).symm, he⟩
  | succ k ih =>
    obtain ⟨m₁, hs, hrest⟩ := exists_of_after_succ h
    obtain ⟨n, rfl, he₁⟩ := he.of_next hs
    obtain ⟨l, rfl, hl⟩ := ih he₁ hrest
    exact ⟨l, by omega, hl⟩

theorem unique (he : EndsAfter job n m ending m') (he' : EndsAfter job k m ending' m'') :
    n = k ∧ ending = ending' ∧ m' = m'' := by
  obtain ⟨last, hn, hlast⟩ := he
  -- The other end lies `l` steps behind this one, from which no step leads on.
  obtain ⟨l, rfl, last', hl, hlast'⟩ := he'.drop hn
  cases l with
  | zero =>
    cases hl
    rw [hlast] at hlast'
    cases hlast'
    exact ⟨rfl, rfl, rfl⟩
  | succ l =>
    rw [after, hlast] at hl
    cases hl

end EndsAfter

/-! ## Fuel -/

theorem proceed_succ_eq (traced : Bool) (fuel : Nat) (views : Array View) :
    proceed job traced (fuel + 1) views m =
      match m.advance job with
      | .next m' => proceed job traced fuel (m.record job traced views) m'
      | .stop ending m' => some ⟨ending, m', m.record job traced views⟩ := by
  rw [proceed, advance, record]
  cases m.pending job <;> rfl

theorem endsAfter_of_proceed {traced : Bool} {fuel : Nat} {views : Array View} {f : Finish}
    (h : proceed job traced fuel views m = some f) :
    ∃ n < fuel, EndsAfter job n m f.ending f.machine := by
  induction fuel generalizing views m with
  | zero => cases h
  | succ fuel ih =>
    rw [proceed_succ_eq] at h
    cases hs : m.advance job with
    | next m' =>
      rw [hs] at h
      obtain ⟨n, hn, he⟩ := ih h
      exact ⟨n + 1, by omega, he.succ hs⟩
    | stop ending m' =>
      rw [hs] at h
      cases h
      exact ⟨0, by omega, .zero hs⟩

theorem proceed_of_endsAfter {fuel : Nat} (traced : Bool) (views : Array View)
    (he : EndsAfter job n m ending m') (hn : n < fuel) :
    ∃ views', proceed job traced fuel views m = some ⟨ending, m', views'⟩ := by
  induction fuel generalizing n views m with
  | zero => omega
  | succ fuel ih =>
    rw [proceed_succ_eq]
    cases hs : m.advance job with
    | next m₁ =>
      obtain ⟨n, rfl, he₁⟩ := he.of_next hs
      exact ih _ he₁ (by omega)
    | stop e m₁ =>
      obtain ⟨_, rfl, rfl⟩ := he.unique (.zero hs)
      exact ⟨_, rfl⟩

/-- The evaluation bounded by fuel ends as the evaluation does. -/
theorem proceed_iff {traced : Bool} {views : Array View} :
    (∃ fuel views', proceed job traced fuel views m = some ⟨ending, m', views'⟩) ↔
      ∃ n, EndsAfter job n m ending m' := by
  constructor
  · rintro ⟨fuel, views', h⟩
    obtain ⟨n, _, he⟩ := endsAfter_of_proceed h
    exact ⟨n, he⟩
  · rintro ⟨n, he⟩
    exact ⟨n + 1, proceed_of_endsAfter traced views he (Nat.lt_succ_self n)⟩

/-- With enough fuel the evaluation comes to an end and leaves the machine `m'`. -/
def RunsTo (job : Job) (traced : Bool) (m : Machine) (ending : Ending) (m' : Machine) : Prop :=
  ∃ fuel views, m.run job traced fuel = some ⟨ending, m', views⟩

theorem RunsTo.unique {traced : Bool} (h : RunsTo job traced m ending m')
    (h' : RunsTo job traced m ending' m'') : ending = ending' ∧ m' = m'' := by
  obtain ⟨fuel, views, hrun⟩ := h
  obtain ⟨fuel', views', hrun'⟩ := h'
  have hsame := (run_mono (Nat.le_max_left fuel fuel') hrun).symm.trans
    (run_mono (Nat.le_max_right fuel fuel') hrun')
  cases hsame
  exact ⟨rfl, rfl⟩

/-- Where no table is written there is nothing in front of the steps. -/
theorem begin_live (hlive : job.mode = .live) (m : Machine) : m.begin job = (m, none) := by
  rw [begin, hlive]

theorem runsTo_iff {traced : Bool} (hlive : job.mode = .live) :
    RunsTo job traced m ending m' ↔ ∃ n, EndsAfter job n m ending m' := by
  have hrun : ∀ fuel, m.run job traced fuel = m.proceed job traced fuel #[] := by
    intro fuel
    simp only [run, begin_live hlive]
  simp only [RunsTo, hrun]
  exact proceed_iff

/-! ## Looks -/

theorem advance_of_pending {i : Instruction} (h : m.pending job = .ok i) :
    m.advance job = m.step job i := by
  rw [advance, h]

theorem advance_of_pending_error (h : m.pending job = .error ending) :
    m.advance job = .stop ending m := by
  rw [advance, h]

theorem advance_next (h : m.advance job = .next m') :
    ∃ i, m.pending job = .ok i ∧ m.step job i = .next m' := by
  rw [advance] at h
  split at h
  · cases h
  · rename_i i hp
    exact ⟨i, hp, h⟩

theorem advance_stop (h : m.advance job = .stop ending m') :
    m.pending job = .error ending ∧ m' = m ∨
      ∃ i, m.pending job = .ok i ∧ m.step job i = .stop ending m' := by
  rw [advance] at h
  split at h
  · rename_i e hp
    cases h
    exact .inl ⟨hp, rfl⟩
  · rename_i i hp
    exact .inr ⟨i, hp, h⟩

theorem kin_of_next (h : m.advance job = .next m') : Kin m m' := by
  obtain ⟨i, _, hs⟩ := advance_next h
  exact (step_next hs).1

theorem kin_of_after (h : m.after job n = some m') : Kin m m' :=
  after_keeps (fun _ _ hk hs => hk.trans (kin_of_next hs)) (.refl m) h

theorem still_of_stop (h : m.advance job = .stop ending m') : Still m m' := by
  rcases advance_stop h with ⟨_, rfl⟩ | ⟨i, _, hs⟩
  · exact .refl _
  · exact (step_stop hs).1

/-! ## Counting steps -/

theorem steps_of_next (h : m.advance job = .next m') : m'.steps = m.steps + 1 := by
  obtain ⟨i, _, hs⟩ := advance_next h
  exact (step_next hs).2.1

theorem steps_of_after (h : m.after job n = some m') : m'.steps = m.steps + n := by
  induction n generalizing m with
  | zero => cases h; rfl
  | succ n ih =>
    obtain ⟨m₁, hs, hrest⟩ := exists_of_after_succ h
    have hone := steps_of_next hs
    have hmore := ih hrest
    omega

theorem EndsAfter.steps (he : EndsAfter job n m ending m') : m'.steps = m.steps + n := by
  obtain ⟨last, hn, hlast⟩ := he
  rw [(still_of_stop hlast).steps, steps_of_after hn]

/-- Where there are fewer steps than `n`, the evaluation ends after those there are. -/
theorem exists_endsAfter (h : m.after job n = none) :
    ∃ k < n, ∃ ending m', EndsAfter job k m ending m' := by
  induction n generalizing m with
  | zero => cases h
  | succ n ih =>
    cases hs : m.advance job with
    | next m₁ =>
      rw [after_succ hs] at h
      obtain ⟨k, hk, ending, m', he⟩ := ih h
      exact ⟨k + 1, by omega, ending, m', he.succ hs⟩
    | stop ending m' => exact ⟨0, by omega, ending, m', .zero hs⟩

/-! ## The flag in the hands of others -/

/-- The machine after somebody has set or cleared the flag of its control, if it has one. -/
def flagged (canceled : Bool) (m : Machine) : Machine :=
  { m with control := m.control.map ({ · with canceled := canceled }) }

theorem still_flagged (canceled : Bool) (m : Machine) : Still m (m.flagged canceled) := by
  refine ⟨⟨rfl, rfl, ?_⟩, rfl, rfl⟩
  simp only [flagged]
  cases m.control <;> rfl

/-- Steps and changes of the flag, in any order. -/
inductive Proceeds (job : Job) : Machine → Machine → Prop where
  | refl (m : Machine) : Proceeds job m m
  | step {m m' m'' : Machine} (h : m.advance job = .next m') (rest : Proceeds job m' m'') :
      Proceeds job m m''
  | flag {m m' : Machine} (canceled : Bool) (rest : Proceeds job (m.flagged canceled) m') :
      Proceeds job m m'

/-- One call of `run`, during which others may change the flag: it ends with the failure of a line
above the table, or after some steps. -/
inductive Call (job : Job) (m : Machine) : Ending → Machine → Prop where
  | refused {m' : Machine} {trouble : Trouble} (h : m.begin job = (m', some trouble)) :
      Call job m (.failed (trouble.failure (job.site m'.pc))) m'
  | ended {m₁ m₂ m' : Machine} {ending : Ending} (hbegin : m.begin job = (m₁, none))
      (hproceeds : Proceeds job m₁ m₂) (hstop : m₂.advance job = .stop ending m') :
      Call job m ending m'

/-- What a machine can become during any number of calls, be it between two steps or two calls. -/
inductive Reachable (job : Job) (start : Machine) : Machine → Prop where
  | start : Reachable job start start
  | begin {m : Machine} (h : Reachable job start m) : Reachable job start (m.begin job).1
  | step {m m' : Machine} (h : Reachable job start m) (hstep : m.advance job = .next m') :
      Reachable job start m'
  | flag {m : Machine} (canceled : Bool) (h : Reachable job start m) :
      Reachable job start (m.flagged canceled)
  | stop {m m' : Machine} {ending : Ending} (h : Reachable job start m)
      (hstop : m.advance job = .stop ending m') : Reachable job start m'

theorem Proceeds.of_after (h : m.after job n = some m') : Proceeds job m m' := by
  induction n generalizing m with
  | zero => cases h; exact .refl _
  | succ n ih =>
    obtain ⟨m₁, hs, hrest⟩ := exists_of_after_succ h
    exact .step hs (ih hrest)

/-- What `run` comes to by itself is what a call may come to. -/
theorem call_of_run {traced : Bool} {fuel : Nat} {f : Finish}
    (h : m.run job traced fuel = some f) : Call job m f.ending f.machine := by
  simp only [run] at h
  split at h
  · rename_i m₁ hbegin
    obtain ⟨n, _, last, hlast, hstop⟩ := endsAfter_of_proceed h
    exact .ended hbegin (.of_after hlast) hstop
  · rename_i m₁ trouble hbegin
    cases h
    exact .refused hbegin

namespace Reachable

variable {start : Machine}

theorem proceeds (h : Reachable job start m) (hp : Proceeds job m m') :
    Reachable job start m' := by
  induction hp with
  | refl _ => exact h
  | step hs _ ih => exact ih (.step h hs)
  | flag canceled _ ih => exact ih (.flag canceled h)

theorem call (h : Reachable job start m) (hc : Call job m ending m') :
    Reachable job start m' := by
  cases hc with
  | refused hbegin =>
    have := h.begin
    rwa [hbegin] at this
  | ended hbegin hproceeds hstop =>
    have := h.begin
    rw [hbegin] at this
    exact (this.proceeds hproceeds).stop hstop

theorem kin (h : Reachable job start m) : Kin start m := by
  induction h with
  | start => exact .refl _
  | begin _ ih => exact ih.trans (still_begin job _).toKin
  | step _ hs ih => exact ih.trans (kin_of_next hs)
  | flag canceled _ ih => exact ih.trans (still_flagged canceled _).toKin
  | stop _ hs ih => exact ih.trans (still_of_stop hs).toKin

end Reachable

end Machine

end TapeMachine
