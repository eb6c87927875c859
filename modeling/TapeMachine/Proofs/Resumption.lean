import TapeMachine.Proofs.Bounds
import TapeMachine.Proofs.Undisturbed

/-!
# TapeMachine.Proofs.Resumption

Work that was stopped can be taken up again without loss.

* `Machine.renewed` — a machine that takes up the work where another one left it, with no step
  counted and under a control of its own.
* `Machine.Pieces`  — work in pieces, each of them a call during which others may set and clear the
  flag. All but the last are stopped by a cancellation or by their step limit.
* `Call.endsAfter_undisturbed`, `Call.after_undisturbed` — the last piece and an earlier piece as
  parts of the work that nobody cancels.
* `pieces_runsTo`   — the pieces come to what the work comes to in one go. By induction on them.
-/

namespace TapeMachine

/-- The step limit of a piece seen from the beginning of the work. -/
def Ending.shifted (before : Nat) : Ending → Ending
  | .failed (.stepLimit limit) => .failed (.stepLimit (before + limit))
  | ending => ending

namespace Machine

/-- The machine that takes the work up again. -/
def renewed (control : Option Control) (m : Machine) : Machine :=
  { m with steps := 0, control := control }

/-- Work in pieces, given the number of steps of all pieces before the last, the step limit of the
last, and how that one ends. -/
inductive Pieces (job : Job) : Machine → Nat → Option Nat → Ending → Machine → Prop where
  | last {m m' : Machine} {control : Option Control} {ending : Ending}
      (hcall : Call job (m.renewed control) ending m') (hending : ending ≠ .failed .canceled) :
      Pieces job m 0 (control.bind (·.maxSteps)) ending m'
  | stopped {m m₁ m' : Machine} {control : Option Control} {cause : Failure}
      {earlier : Nat} {limit : Option Nat} {ending : Ending}
      (hcall : Call job (m.renewed control) (.failed cause) m₁)
      (hcause : cause = .canceled ∨ ∃ limit, cause = .stepLimit limit)
      (rest : Pieces job m₁ earlier limit ending m') :
      Pieces job m (m₁.steps + earlier) limit ending m'

variable {job : Job} {m m₁ m' : Machine} {control control' : Option Control} {ending : Ending}
  {cause : Failure} {before earlier : Nat} {limit : Option Nat}

/-! ## Calls -/

theorem Call.proceeds (hlive : job.mode = .live) (h : Call job m ending m') :
    ∃ last, Proceeds job m last ∧ last.advance job = .stop ending m' := by
  cases h with
  | refused hrefused =>
    rw [begin_live hlive] at hrefused
    cases hrefused
  | ended hb hproceeds hstop =>
    rw [begin_live hlive] at hb
    cases hb
    exact ⟨_, hproceeds, hstop⟩

theorem Proceeds.steps_le_limit {l : Nat} (h : Proceeds job m m') (hl : m.limit? = some l)
    (hle : m.steps ≤ l) : m'.steps ≤ l := by
  induction h with
  | refl => exact hle
  | step hs _ ih =>
    obtain ⟨i, hi, _⟩ := advance_next hs
    have hlt := (pending_eq_ok_iff.1 hi).2.limit l hl
    have hone := steps_of_next hs
    exact ih ((kin_of_next hs).limit?_eq.trans hl) (by omega)
  | flag canceled _ ih => exact ih ((still_flagged canceled _).limit?_eq.trans hl) hle

theorem Proceeds.limit?_eq (h : Proceeds job m m') : m'.limit? = m.limit? := by
  induction h with
  | refl => rfl
  | step hs _ ih => exact ih.trans (kin_of_next hs).limit?_eq
  | flag canceled _ ih => exact ih.trans (still_flagged canceled _).limit?_eq

theorem shifted_of_step_stop {i : Instruction} (h : m.step job i = .stop ending m')
    (before : Nat) : ending.shifted before = ending := by
  rcases (step_stop h).2 with ⟨rfl, _⟩ | ⟨trouble, rfl⟩
  · rfl
  · cases trouble <;> rfl

/-- The work that nobody cancels passes through the machine that an earlier piece leaves. -/
theorem Call.after_undisturbed (hlive : job.mode = .live)
    (hflag : control.any (·.canceled) = false) (hc : Call job m (.failed cause) m')
    (hcause : cause.site? = none)
    (hlimit : ∀ limit, control.bind (·.maxSteps) = some limit → before + m'.steps ≤ limit) :
    ∃ n, (m.undisturbed control before).after job n = some (m'.undisturbed control before) := by
  obtain ⟨last, hproceeds, hstop⟩ := hc.proceeds hlive
  rcases advance_stop hstop with ⟨_, rfl⟩ | ⟨i, _, hstep⟩
  · exact hproceeds.undisturbed hlive hflag hlimit
  · rcases (step_stop hstep).2 with ⟨hending, _⟩ | ⟨trouble, hending⟩
    · cases hending
    · cases hending
      rw [Trouble.site?_failure] at hcause
      cases hcause

theorem Call.endsAfter_undisturbed (hlive : job.mode = .live)
    (hflag : control.any (·.canceled) = false) (hc : Call job m ending m')
    (hending : ending ≠ .failed .canceled) (hnew : m.steps = 0)
    (hlimit : control.bind (·.maxSteps) = m.limit?.map (before + ·)) :
    ∃ n, EndsAfter job n (m.undisturbed control before) (ending.shifted before)
      (m'.undisturbed control before) := by
  obtain ⟨last, hproceeds, hstop⟩ := hc.proceeds hlive
  have hreach : ∀ limit, control.bind (·.maxSteps) = some limit →
      ∃ l, limit = before + l ∧ last.limit? = some l ∧ last.steps ≤ l := by
    intro limit hl
    rw [hlimit] at hl
    obtain ⟨l, hml, rfl⟩ := Option.map_eq_some_iff.1 hl
    exact ⟨l, rfl, hproceeds.limit?_eq.trans hml, hproceeds.steps_le_limit hml (by omega)⟩
  have hafter : ∃ n, (m.undisturbed control before).after job n =
      some (last.undisturbed control before) := by
    refine hproceeds.undisturbed hlive hflag fun limit hl => ?_
    obtain ⟨l, rfl, _, hle⟩ := hreach limit hl
    omega
  obtain ⟨n, hn⟩ := hafter
  refine ⟨n, last.undisturbed control before, hn, ?_⟩
  rcases advance_stop hstop with ⟨hp, rfl⟩ | ⟨i, hi, hstep⟩
  · rcases pending_eq_error hp with
      ⟨rfl, hend⟩ | ⟨⟨i, hi⟩, ⟨rfl, _⟩ | ⟨l, rfl, hl, hle⟩⟩
    · exact advance_of_pending_error (pending_of_end hend)
    · exact absurd rfl hending
    · -- The limit of the piece is reached where the limit of the whole is reached.
      have htotal : control.bind (·.maxSteps) = some (before + l) := by
        rw [hlimit, ← hproceeds.limit?_eq, hl]
        rfl
      have hsteps : before + l ≤ before + m'.steps := by omega
      exact advance_of_pending_error (pending_of_limit hi hflag htotal hsteps)
  · have hp : (last.undisturbed control before).Permitted := by
      refine permitted_undisturbed hflag fun limit hl => ?_
      obtain ⟨l, rfl, hl', _⟩ := hreach limit hl
      have hlt := (pending_eq_ok_iff.1 hi).2.limit l hl'
      omega
    rw [advance_undisturbed hlive hp hi, hstop, shifted_of_step_stop hstep]
    rfl

theorem Pieces.endsAfter_undisturbed (hlive : job.mode = .live)
    (hflag : control.any (·.canceled) = false) (h : Pieces job m earlier limit ending m')
    (before : Nat)
    (hlimit : control.bind (·.maxSteps) = limit.map (before + earlier + ·)) :
    ∃ n, EndsAfter job n ((m.renewed none).undisturbed control before)
      (ending.shifted (before + earlier))
      (m'.undisturbed control (before + earlier)) := by
  -- By induction on the pieces. What is behind the piece at hand counts into the steps of the work
  -- that nobody cancels.
  induction h generalizing before with
  | last hcall hending =>
    obtain ⟨n, hn⟩ := hcall.endsAfter_undisturbed hlive hflag hending rfl hlimit
    exact ⟨n, hn⟩
  | @stopped m m₁ m' control' cause earlier limit ending hcall hcause rest ih =>
    rw [← Nat.add_assoc] at hlimit ⊢
    obtain ⟨k, hk⟩ := ih (before + m₁.steps) hlimit
    have hsite : cause.site? = none := by
      rcases hcause with rfl | ⟨l, rfl⟩ <;> rfl
    have hafter : ∃ n, ((m.renewed control').undisturbed control before).after job n =
        some (m₁.undisturbed control before) := by
      refine hcall.after_undisturbed hlive hflag hsite fun total hl => ?_
      rw [hlimit] at hl
      obtain ⟨l, _, rfl⟩ := Option.map_eq_some_iff.1 hl
      omega
    obtain ⟨n, hn⟩ := hafter
    exact ⟨n + k, .of_after hn hk⟩

/-- Work in pieces comes to what the same work comes to in one go, if nobody cancels that and its
limit is that of the last piece behind the steps of the others: it ends in the same way, with the
same tape, counter and output, has as much left to read, and makes as many steps. -/
theorem pieces_runsTo (hlive : job.mode = .live) (h : Pieces job m earlier limit ending m')
    (hflag : control.any (·.canceled) = false)
    (hlimit : control.bind (·.maxSteps) = limit.map (earlier + ·)) (traced : Bool) :
    (m.calm.renewed control).RunsTo job traced (ending.shifted earlier)
      { m'.calm with steps := earlier + m'.steps, control := control } := by
  rw [runsTo_iff hlive]
  have hzero : 0 + earlier = earlier := Nat.zero_add _
  have hends := h.endsAfter_undisturbed hlive hflag 0 (by rwa [hzero])
  rwa [hzero] at hends

/-- `,+.` in three pieces: cancelled during the read, stopped by a limit of one step, and then run
to the end under a limit of five steps. In one go that is a limit of seven steps. -/
theorem pieces_runsTo_three :
    let job : Job := ⟨⟨#[⟨.read, 0⟩, ⟨.increment, 1⟩, ⟨.write, 2⟩]⟩, ⟨#[none, none, none], 0⟩, .live⟩
    let m : Machine := ⟨Tape.new 1 .wrap, 0, 0, [.cancel, .byte 7, .byte 8], {}, none⟩
    let m' : Machine := ⟨(Tape.new 1 .wrap).store 8, 3, 1, [.byte 8],
      { taken := #[8], flushes := 1 }, some { maxSteps := some 5 }⟩
    let control : Option Control := some { maxSteps := some 7 }
    job.mode = .live ∧ m.Pieces job 2 (some 5) .finished m' ∧
      control.any (·.canceled) = false ∧
      control.bind (·.maxSteps) = (some 5).map (2 + ·) ∧
      (m.calm.renewed control).RunsTo job false .finished
        { m'.calm with steps := 2 + m'.steps, control := control } := by
  intro job m m' control
  let m₁ : Machine := ⟨(Tape.new 1 .wrap).store 7, 1, 1, [.byte 8], {}, some { canceled := true }⟩
  let m₂ : Machine := ⟨(Tape.new 1 .wrap).store 8, 2, 1, [.byte 8], {},
    some { maxSteps := some 1 }⟩
  have hfirst : (m.renewed (some {})).run job false 5 =
      some ⟨.failed .canceled, m₁, #[]⟩ := by cbv
  have hsecond : (m₁.renewed (some { maxSteps := some 1 })).run job false 5 =
      some ⟨.failed (.stepLimit 1), m₂, #[]⟩ := by cbv
  have hthird : (m₂.renewed (some { maxSteps := some 5 })).run job false 5 =
      some ⟨.finished, m', #[]⟩ := by cbv
  have hend : Ending.finished ≠ .failed .canceled := by decide
  have hpieces : m.Pieces job 2 (some 5) .finished m' :=
    .stopped (call_of_run hfirst) (.inl rfl)
      (.stopped (call_of_run hsecond) (.inr ⟨1, rfl⟩)
        (.last (call_of_run hthird) hend))
  exact ⟨rfl, hpieces, rfl, rfl, pieces_runsTo rfl hpieces rfl rfl false⟩

end Machine

end TapeMachine
