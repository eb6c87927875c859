import TapeMachine.Proofs.Bounds
import TapeMachine.Proofs.Undisturbed

/-!
# TapeMachine.Proofs.Truncation

A step limit only cuts an evaluation off.

* `Machine.Within` — the ways to end that a limit leaves alone. The end of the program may still
  come right behind the last step that is allowed, but trouble in the step after that may not.
* `Quiet.after_under`, `endsAfter_under` — as far as the limit reaches, a limited machine is the
  unlimited one under another control.
* `Machine.runsTo_limited` — the whole of it: the unlimited evaluation ends within the limit and the
  limited one ends in the same way, or else the limited one is the beginning of it.
-/

namespace TapeMachine

namespace Machine

/-- A control that does nothing but limit the number of steps. -/
def limiting (limit : Nat) : Control := { maxSteps := some limit }

/-- The ways to end that a limit leaves alone, counted from a new machine. -/
inductive Within (limit : Nat) : Ending → Machine → Prop where
  | finished {m : Machine} (hsteps : m.steps ≤ limit) : Within limit .finished m
  /-- A step that is in trouble would have been another one. -/
  | trouble {m : Machine} {cause : Failure} {site : Site} (hsite : cause.site? = some site)
      (hsteps : m.steps < limit) : Within limit (.failed cause) m

variable {job : Job} {m m' : Machine} {ending : Ending} {n limit : Nat}

theorem Quiet.after_under (hlive : job.mode = .live) (hq : m.Quiet)
    (h : m.after job n = some m') (hle : m'.steps ≤ limit) :
    (m.under (some (limiting limit))).after job n =
      some (m'.under (some (limiting limit))) := by
  have hreach : ∃ k, (m.undisturbed (some (limiting limit)) 0).after job k =
      some (m'.undisturbed (some (limiting limit)) 0) := by
    refine (Proceeds.of_after h).undisturbed hlive rfl fun limit' hl => ?_
    have hlimit : limit = limit' := Option.some.inj hl
    omega
  obtain ⟨k, hk⟩ := hreach
  -- The number of steps can be read off the machines.
  have hcount := steps_of_after hk
  have hsteps := steps_of_after h
  simp only [undisturbed_steps] at hcount
  obtain rfl : k = n := by omega
  rwa [hq.undisturbed_eq, (hq.of_after hlive h).1.undisturbed_eq] at hk

theorem Quiet.endsAfter_under (hlive : job.mode = .live) (hq : m.Quiet)
    (he : EndsAfter job n m ending m') (hw : Within limit ending m') :
    EndsAfter job n (m.under (some (limiting limit))) ending
      (m'.under (some (limiting limit))) := by
  obtain ⟨last, hlast, hstop⟩ := he
  have hqlast := (hq.of_after hlive hlast).1
  have hsteps := (still_of_stop hstop).steps
  have hle : last.steps ≤ limit := by
    cases hw with
    | finished h => omega
    | trouble _ h => omega
  refine ⟨last.under _, hq.after_under hlive hlast hle, ?_⟩
  rcases advance_stop hstop with ⟨hp, rfl⟩ | ⟨i, hi, hstep⟩
  · rcases pending_eq_error hp with ⟨rfl, hend⟩ | ⟨_, ⟨_, hflag⟩ | ⟨l, rfl, _⟩⟩
    · exact advance_of_pending_error (pending_of_end hend)
    · rw [hqlast.flag] at hflag
      cases hflag
    · cases hw with
      | trouble hsite _ => cases hsite
  · have hlt : last.steps < limit := by
      cases hw with
      | finished _ =>
        rcases (step_stop hstep).2 with ⟨hending, _⟩ | ⟨trouble, hending⟩ <;> cases hending
      | trouble _ h => omega
    have hp : (last.undisturbed (some (limiting limit)) 0).Permitted := by
      refine permitted_undisturbed rfl fun limit' hl => ?_
      have hlimit : limit = limit' := Option.some.inj hl
      omega
    rw [← hqlast.undisturbed_eq, advance_undisturbed hlive hp hi, hstop, Step.map,
      (hqlast.of_stop hlive hstop).1.undisturbed_eq]

/-- Where the program goes on behind as many steps as are allowed, the limit ends it. -/
theorem Quiet.endsAfter_limit (hlive : job.mode = .live) (hq : m.Quiet)
    (h : m.after job n = some m') (hsteps : m'.steps = limit) {i : Instruction}
    (hi : job.program.instruction? m'.pc = some i) :
    EndsAfter job n (m.under (some (limiting limit))) (.failed (.stepLimit limit))
      (m'.under (some (limiting limit))) := by
  refine ⟨_, hq.after_under hlive h (Nat.le_of_eq hsteps), ?_⟩
  exact advance_of_pending_error (pending_of_limit hi rfl rfl (Nat.le_of_eq hsteps.symm))

theorem within_of_endsAfter (h : JumpTable.ofProgram job.program = .ok job.jumps)
    (hlive : job.mode = .live) (hq : m.Quiet) (hfree : m.limit? = none)
    (he : EndsAfter job n m ending m') (hlt : m'.steps < limit) : Within limit ending m' := by
  obtain ⟨last, hlast, hstop⟩ := he
  obtain ⟨hqlast, hcontrol⟩ := hq.of_after hlive hlast
  rcases advance_stop hstop with ⟨hp, rfl⟩ | ⟨i, hi, hstep⟩
  · rcases pending_eq_error hp with ⟨rfl, _⟩ | ⟨_, ⟨_, hflag⟩ | ⟨l, _, hl, _⟩⟩
    · exact .finished (Nat.le_of_lt hlt)
    · rw [hqlast.flag] at hflag
      cases hflag
    · rw [limit?, hcontrol, ← limit?, hfree] at hl
      cases hl
  · obtain ⟨trouble, rfl⟩ := trouble_of_step_stop h (pending_eq_ok_iff.1 hi).1 hstep
    exact .trouble (trouble.site?_failure _) hlt

/-- A step limit only cuts an evaluation off. If the evaluation without a limit ends within the
limit, the limited one ends in the same way and leaves the same machine; in every other case it
ends with the limit, and leaves the machine that the other one is after as many steps. -/
theorem runsTo_limited {p : Program} {jumps : JumpTable} (h : JumpTable.ofProgram p = .ok jumps)
    {m : Machine} (hnew : m.steps = 0) (hq : m.Quiet) (hfree : m.limit? = none) (traced : Bool)
    (limit : Nat) :
    (∀ ending m', m.RunsTo ⟨p, jumps, .live⟩ traced ending m' → Within limit ending m' →
      (m.under (some (limiting limit))).RunsTo ⟨p, jumps, .live⟩ traced ending
        (m'.under (some (limiting limit)))) ∧
    ((∀ ending m', m.RunsTo ⟨p, jumps, .live⟩ traced ending m' → ¬Within limit ending m') →
      ∃ m', m.after ⟨p, jumps, .live⟩ limit = some m' ∧ m'.steps = limit ∧
        (m.under (some (limiting limit))).RunsTo ⟨p, jumps, .live⟩ traced
          (.failed (.stepLimit limit)) (m'.under (some (limiting limit)))) := by
  simp only [runsTo_iff]
  constructor
  · rintro ending m' ⟨n, he⟩ hw
    exact ⟨n, hq.endsAfter_under rfl he hw⟩
  · intro hlong
    cases hafter : m.after ⟨p, jumps, .live⟩ limit with
    | none =>
      -- The unlimited evaluation would be over before, and then in a way that is allowed.
      obtain ⟨n, hn, ending, m', he⟩ := exists_endsAfter hafter
      have hsteps := he.steps
      have hw : Within limit ending m' := within_of_endsAfter h rfl hq hfree he (by omega)
      exact absurd hw (hlong ending m' ⟨n, he⟩)
    | some m' =>
      have hsteps := steps_of_after hafter
      rw [hnew, Nat.zero_add] at hsteps
      cases hi : p.instruction? m'.pc with
      | none =>
        have hend : EndsAfter ⟨p, jumps, .live⟩ limit m .finished m' :=
          ⟨m', hafter, advance_of_pending_error (pending_of_end hi)⟩
        exact absurd (.finished (Nat.le_of_eq hsteps)) (hlong _ _ ⟨limit, hend⟩)
      | some i =>
        exact ⟨m', rfl, hsteps, limit, hq.endsAfter_limit rfl hafter hsteps hi⟩

/-- The endless `+[]` does not end within two steps, and is cut off behind the `[`. -/
theorem runsTo_limited_endless :
    let p : Program := ⟨#[⟨.increment, 0⟩, ⟨.loopOpen, 1⟩, ⟨.loopClose, 2⟩]⟩
    let jumps : JumpTable := ⟨#[none, some 2, some 1], 1⟩
    let m : Machine := ⟨Tape.new 1 .wrap, 0, 0, [], {}, none⟩
    JumpTable.ofProgram p = .ok jumps ∧ m.steps = 0 ∧ m.Quiet ∧ m.limit? = none ∧
      (∀ ending m', m.RunsTo ⟨p, jumps, .live⟩ false ending m' → ¬Within 2 ending m') ∧
      ∃ m', m.after ⟨p, jumps, .live⟩ 2 = some m' ∧ m'.steps = 2 ∧
        (m.under (some (limiting 2))).RunsTo ⟨p, jumps, .live⟩ false (.failed (.stepLimit 2))
          (m'.under (some (limiting 2))) := by
  intro p jumps m
  have h : JumpTable.ofProgram p = .ok jumps := rfl
  have hq : m.Quiet := ⟨by decide, rfl, rfl⟩
  have hthree : m.after ⟨p, jumps, .live⟩ 3 =
      some ⟨(Tape.new 1 .wrap).increment, 1, 3, [], {}, none⟩ := rfl
  have hlong : ∀ ending m', m.RunsTo ⟨p, jumps, .live⟩ false ending m' →
      ¬Within 2 ending m' := by
    intro ending m' hrun hw
    obtain ⟨n, he⟩ := (runsTo_iff rfl).1 hrun
    obtain ⟨l, rfl, _⟩ := he.drop hthree
    have hsteps : m'.steps = 0 + (3 + l) := he.steps
    cases hw with
    | finished hle => omega
    | trouble _ hlt => omega
  exact ⟨h, rfl, hq, rfl, hlong, (runsTo_limited h rfl hq rfl false 2).2 hlong⟩

end Machine

end TapeMachine
