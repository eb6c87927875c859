import TapeMachine.Block.Eval
import TapeMachine.Proofs.Change
import TapeMachine.Proofs.Course
import TapeMachine.Proofs.Tree

/-!
# TapeMachine.Proofs.Refinement

The machine with a counter and a jump table refines the evaluation of trees.

* `Machine.Realizes`    — from some index on, the machine with a counter does what the evaluation
  of a block has done.
* `Block.eval_realizes` — it does so wherever the block stands in the program. By induction on the
  fuel, with one lemma about the machine for each way in which a loop can be met.
* `Block.exists_eval`   — the converse: where the machine comes to an end, the evaluation of the
  block has enough fuel. By induction on the number of steps that the machine makes.
* `Machine.run_observed_iff` — for whole programs: the same outcomes, or none on both sides.
-/

namespace TapeMachine

namespace Machine

/-- The machine with its counter at `ip`. -/
def moveTo (ip : Nat) (m : Machine) : Machine := { m with pc := ip }

variable {p : Program} {jumps : JumpTable} {ip next : Nat} {i : Instruction} {m m' : Machine}

@[simp] theorem moveTo_pc : (m.moveTo ip).pc = ip := rfl

@[simp] theorem moveTo_cell : (m.moveTo ip).tape.cell = m.tape.cell := rfl

@[simp] theorem moveTo_control : (m.moveTo ip).control = m.control := rfl

theorem perform_moveTo (ip : Nat) (i : Instruction) (m : Machine) :
    (m.moveTo ip).perform i = ((m.perform i).1.moveTo ip, (m.perform i).2) := by
  have h : Change.Hidden { pc := fun _ => ip } i m :=
    ⟨Tape.commutes_id i m.tape, rfl, rfl, rfl, rfl⟩
  exact h.perform

/-! ## Single steps

Without a control every instruction under the counter is carried out. -/

theorem advance_of_control_none (hc : m.control = none) (hi : p.instruction? ip = some i) :
    (m.moveTo ip).advance ⟨p, jumps, .live⟩ = (m.moveTo ip).step ⟨p, jumps, .live⟩ i := by
  have hpending : (m.moveTo ip).pending ⟨p, jumps, .live⟩ = .ok i := by
    simp only [pending, moveTo_pc, moveTo_control, hi, hc]
  rw [advance, hpending]

theorem advance_end (hend : p.instruction? ip = none) :
    (m.moveTo ip).advance ⟨p, jumps, .live⟩ = .stop .finished (m.moveTo ip) := by
  have hpending : (m.moveTo ip).pending ⟨p, jumps, .live⟩ = .error .finished := by
    simp only [pending, moveTo_pc, hend]
  rw [advance, hpending]

theorem advance_plain (hc : m.control = none) (hi : p.instruction? ip = some i)
    (hb : i.isBracket = false) :
    (m.moveTo ip).advance ⟨p, jumps, .live⟩ =
      conclude ⟨p, jumps, .live⟩ .onward ((m.perform i).1.moveTo ip, (m.perform i).2) := by
  rw [advance_of_control_none hc hi, ← perform_moveTo]
  cases i with
  | loopOpen => cases hb
  | loopClose => cases hb
  | _ => rfl

theorem advance_plain_next (hc : m.control = none) (hi : p.instruction? ip = some i)
    (hb : i.isBracket = false) (h : m.perform i = (m', none)) :
    (m.moveTo ip).advance ⟨p, jumps, .live⟩ = .next (m'.tick.moveTo (ip + 1)) := by
  rw [advance_plain hc hi hb, h]
  rfl

theorem advance_plain_stop {trouble : Trouble} (hc : m.control = none)
    (hi : p.instruction? ip = some i) (hb : i.isBracket = false)
    (h : m.perform i = (m', some trouble)) :
    (m.moveTo ip).advance ⟨p, jumps, .live⟩ =
      .stop (.failed (trouble.failure ⟨ip, p.locate ip⟩)) (m'.moveTo ip) := by
  rw [advance_plain hc hi hb, h]
  rfl

theorem advance_bracket (flow : Flow) (hc : m.control = none) (hi : p.instruction? ip = some i)
    (hb : i.isBracket = true)
    (hflow : Job.flow? ⟨p, jumps, .live⟩ ip m.tape.cell i = some flow) :
    (m.moveTo ip).advance ⟨p, jumps, .live⟩ = .next (m.tick.moveTo (flow.counter ip)) := by
  rw [advance_of_control_none hc hi, step, moveTo_pc, moveTo_cell, hflow]
  cases i with
  | loopOpen => rfl
  | loopClose => rfl
  | _ => cases hb

section Brackets

variable {opening closing : Nat} (hp : Paired p.instructions opening closing)
  (hc : m.control = none)

include hp hc

/-- A loop that is met with a zero is skipped. -/
theorem advance_skip (h : JumpTable.ofProgram p = .ok jumps) (hz : m.tape.cell = 0) :
    (m.moveTo opening).advance ⟨p, jumps, .live⟩ = .next (m.tick.moveTo (closing + 1)) := by
  refine advance_bracket (.past closing) hc
    ((p.instruction?_eq_getElem? _).trans hp.opens) rfl ?_
  rw [Job.flow?, if_pos hz, (JumpTable.ofProgram_target?_iff h).2 (.inl hp)]
  rfl

theorem advance_enter (jumps : JumpTable) (hz : m.tape.cell ≠ 0) :
    (m.moveTo opening).advance ⟨p, jumps, .live⟩ = .next (m.tick.moveTo (opening + 1)) := by
  refine advance_bracket .onward hc ((p.instruction?_eq_getElem? _).trans hp.opens) rfl ?_
  rw [Job.flow?, if_neg hz]

theorem advance_leave (jumps : JumpTable) (hz : m.tape.cell = 0) :
    (m.moveTo closing).advance ⟨p, jumps, .live⟩ = .next (m.tick.moveTo (closing + 1)) := by
  refine advance_bracket .onward hc ((p.instruction?_eq_getElem? _).trans hp.closes) rfl ?_
  rw [Job.flow?, if_pos hz]

theorem advance_repeat (h : JumpTable.ofProgram p = .ok jumps) (hz : m.tape.cell ≠ 0) :
    (m.moveTo closing).advance ⟨p, jumps, .live⟩ = .next (m.tick.moveTo opening) := by
  refine advance_bracket (.back opening) hc
    ((p.instruction?_eq_getElem? _).trans hp.closes) rfl ?_
  rw [Job.flow?, if_neg hz, (JumpTable.ofProgram_target?_iff h).2 (.inr hp)]
  rfl

end Brackets

/-! ## From trees to counters -/

/-- With its counter at `ip` the machine does what a block has done: it goes on at `next`, or ends
in the same way. -/
def Realizes (job : Job) (m : Machine) (ip next : Nat) : Step → Prop
  | .next m' => m'.control = none ∧ ∃ n, (m.moveTo ip).after job n = some (m'.moveTo next)
  | .stop ending m' => ∃ n ip', EndsAfter job n (m.moveTo ip) ending (m'.moveTo ip')

theorem Realizes.of_after {job : Job} {n ip' : Nat} {s : Step}
    (h : (m.moveTo ip).after job n = some (m'.moveTo ip')) (hr : Realizes job m' ip' next s) :
    Realizes job m ip next s := by
  cases s with
  | next m'' =>
    obtain ⟨hc, k, hk⟩ := hr
    exact ⟨hc, n + k, (after_add h k).trans hk⟩
  | stop ending m'' =>
    obtain ⟨k, ip'', he⟩ := hr
    exact ⟨n + k, ip'', .of_after h he⟩

theorem Realizes.of_next {job : Job} {ip' : Nat} {s : Step}
    (h : (m.moveTo ip).advance job = .next (m'.moveTo ip')) (hr : Realizes job m' ip' next s) :
    Realizes job m ip next s :=
  hr.of_after (after_one h)

end Machine

namespace Block

open Machine

variable {p : Program} {jumps : JumpTable} {ip fuel : Nat} {b : Block} {m : Machine} {s : Step}

theorem eval_realizes (h : JumpTable.ofProgram p = .ok jumps) (hat : At p ip b)
    (hc : m.control = none) (he : eval p fuel ip b m = some s) :
    Realizes ⟨p, jumps, .live⟩ m ip (ip + b.size) s := by
  induction fuel generalizing ip b m s with
  | zero => cases he
  | succ fuel ih =>
    cases b with
    | done =>
      cases he
      exact ⟨hc, 0, rfl⟩
    | plain i hb rest =>
      obtain ⟨hi, hrest⟩ := hat.plain
      cases hp : m.perform i with
      | mk m₁ trouble =>
        have hc₁ := (still_perform i m).control_eq_none hc
        rw [hp] at hc₁
        cases trouble with
        | none =>
          rw [eval_plain_next hp] at he
          have hr := ih (m := m₁.tick) hrest hc₁ he
          rw [show ip + 1 + rest.size = ip + (plain i hb rest).size by
            simp only [size]; omega] at hr
          exact hr.of_next (advance_plain_next hc hi hb hp)
        | some trouble =>
          rw [eval_plain_stop hp] at he
          cases he
          exact ⟨0, ip, .zero (advance_plain_stop hc hi hb hp)⟩
    | loop body rest =>
      obtain ⟨hpair, hbody, hrest⟩ := hat.loop
      have hsize : ip + body.size + 2 + rest.size = ip + (loop body rest).size := by
        simp only [size]; omega
      have hbehind : ip + 1 + body.size + 1 = ip + body.size + 2 := by omega
      by_cases hz : m.tape.cell = 0
      · rw [eval_loop_skip hz] at he
        have hskip := advance_skip hpair hc h hz
        rw [hbehind] at hskip
        have hr := ih (m := m.tick) hrest hc he
        rw [hsize] at hr
        exact hr.of_next hskip
      · have henter := advance_enter hpair hc jumps hz
        cases hb : eval p fuel (ip + 1) body m.tick with
        | none =>
          rw [eval, if_neg hz, hb] at he
          cases he
        | some outcome =>
          have hround := ih (m := m.tick) hbody hc hb
          cases outcome with
          | stop ending m₁ =>
            rw [eval_loop_stop hz hb] at he
            cases he
            exact hround.of_next henter
          | next m₁ =>
            -- The machine stands at the `]` and looks at the cell, as the evaluation does.
            obtain ⟨hc₁, n, hn⟩ := hround
            have hone := (after_succ henter).trans hn
            by_cases hz₁ : m₁.tape.cell = 0
            · rw [eval_loop_last hz hb hz₁] at he
              have hleave := advance_leave hpair hc₁ jumps hz₁
              rw [hbehind] at hleave
              have hr := ih (m := m₁.tick) hrest hc₁ he
              rw [hsize] at hr
              exact (hr.of_next hleave).of_after hone
            · rw [eval_loop_again hz hb hz₁] at he
              have hr := ih (m := m₁.tick) hat hc₁ he
              exact (hr.of_next (advance_repeat hpair hc₁ h hz₁)).of_after hone

/-! ## From counters to trees -/

/-- Where the machine comes to an end, the evaluation needs only so much fuel. The number of steps
that are left gets smaller in the body of a loop, and smaller again in the next round. -/
theorem exists_eval (h : JumpTable.ofProgram p = .ok jumps) {n : Nat} {ending : Ending}
    {m' : Machine} (hat : At p ip b)
    (he : EndsAfter ⟨p, jumps, .live⟩ n (m.moveTo ip) ending m') (hc : m.control = none) :
    ∃ fuel s, eval p fuel ip b m = some s := by
  induction n using Nat.strongRecOn generalizing ip b m with
  | ind n ih =>
    cases b with
    | done => exact ⟨1, _, rfl⟩
    | plain i hb rest =>
      obtain ⟨hi, hrest⟩ := hat.plain
      cases hp : m.perform i with
      | mk m₁ trouble =>
        have hc₁ := (still_perform i m).control_eq_none hc
        rw [hp] at hc₁
        cases trouble with
        | none =>
          obtain ⟨k, rfl, hk⟩ := he.of_next (advance_plain_next hc hi hb hp)
          obtain ⟨fuel, s, hs⟩ := ih k (by omega) hrest hk hc₁
          exact ⟨fuel + 1, s, (eval_plain_next hp).trans hs⟩
        | some trouble => exact ⟨1, _, eval_plain_stop hp⟩
    | loop body rest =>
      obtain ⟨hpair, hbody, hrest⟩ := hat.loop
      have hbehind : ip + 1 + body.size + 1 = ip + body.size + 2 := by omega
      by_cases hz : m.tape.cell = 0
      · have hskip := advance_skip hpair hc h hz
        rw [hbehind] at hskip
        obtain ⟨k, rfl, hk⟩ := he.of_next hskip
        obtain ⟨fuel, s, hs⟩ := ih k (by omega) hrest hk hc
        exact ⟨fuel + 1, s, (eval_loop_skip hz).trans hs⟩
      · obtain ⟨k, rfl, hk⟩ := he.of_next (advance_enter hpair hc jumps hz)
        obtain ⟨fuel, s, hs⟩ := ih k (by omega) hbody hk hc
        cases s with
        | stop ending m₁ => exact ⟨fuel + 1, _, eval_loop_stop hz hs⟩
        | next m₁ =>
          obtain ⟨hc₁, n, hn⟩ := eval_realizes (m := m.tick) h hbody hc hs
          -- The steps of the body are among those of the machine; fewer are left behind it.
          obtain ⟨l, rfl, hl⟩ := hk.drop hn
          by_cases hz₁ : m₁.tape.cell = 0
          · have hleave := advance_leave hpair hc₁ jumps hz₁
            rw [hbehind] at hleave
            obtain ⟨l, rfl, hl'⟩ := hl.of_next hleave
            obtain ⟨more, s, hs'⟩ := ih l (by omega) hrest hl' hc₁
            -- The greater amount of fuel is enough for the body as well as for what follows.
            have hbody' := eval_mono (Nat.le_max_left fuel more) hs
            have hrest' := eval_mono (Nat.le_max_right fuel more) hs'
            exact ⟨_, s, (eval_loop_last hz hbody' hz₁).trans hrest'⟩
          · obtain ⟨l, rfl, hl'⟩ := hl.of_next (advance_repeat hpair hc₁ h hz₁)
            obtain ⟨more, s, hs'⟩ := ih l (by omega) hat hl' hc₁
            have hbody' := eval_mono (Nat.le_max_left fuel more) hs
            have hagain' := eval_mono (Nat.le_max_right fuel more) hs'
            exact ⟨_, s, (eval_loop_again hz hbody' hz₁).trans hagain'⟩

end Block

/-! ## Whole programs -/

namespace Machine

variable {p : Program} {jumps : JumpTable} {m : Machine} {s : Step}

/-- What is realized up to the end of the program is the outcome of the program. -/
theorem Realizes.endsAfter (hr : Realizes ⟨p, jumps, .live⟩ m 0 p.size s) :
    ∃ n ending m', EndsAfter ⟨p, jumps, .live⟩ n (m.moveTo 0) ending m' ∧
      m'.observed ending = s.observed := by
  cases s with
  | next m' =>
    obtain ⟨_, n, hn⟩ := hr
    have hend : p.instruction? p.size = none :=
      Program.instruction?_eq_none_iff.2 (Nat.le_refl _)
    exact ⟨n, .finished, m'.moveTo p.size, ⟨_, hn, advance_end hend⟩, rfl⟩
  | stop ending m' =>
    obtain ⟨n, ip, he⟩ := hr
    exact ⟨n, ending, m'.moveTo ip, he, rfl⟩

theorem exists_run_iff {traced : Bool} {outcome : Observed} :
    (∃ fuel f, m.run ⟨p, jumps, .live⟩ traced fuel = some f ∧ f.observed = outcome) ↔
      ∃ n ending m', EndsAfter ⟨p, jumps, .live⟩ n m ending m' ∧
        m'.observed ending = outcome := by
  constructor
  · rintro ⟨fuel, ⟨ending, m', views⟩, hf, rfl⟩
    have hends : ∃ n, EndsAfter ⟨p, jumps, .live⟩ n m ending m' :=
      proceed_iff.1 ⟨fuel, views, hf⟩
    obtain ⟨n, he⟩ := hends
    exact ⟨n, ending, m', he, rfl⟩
  · rintro ⟨n, ending, m', he, rfl⟩
    have hproceed : ∃ fuel views,
        proceed ⟨p, jumps, .live⟩ traced fuel #[] m = some ⟨ending, m', views⟩ :=
      proceed_iff.2 ⟨n, he⟩
    obtain ⟨fuel, views, hf⟩ := hproceed
    exact ⟨fuel, _, hf, rfl⟩

theorem exists_run_iff_exists_eval {tree : Block} (traced : Bool)
    (h : JumpTable.ofProgram p = .ok jumps)
    (htree : Block.ofInstructions? p.instructions = some tree) (hpc : m.pc = 0)
    (hc : m.control = none) (outcome : Observed) :
    (∃ fuel f, m.run ⟨p, jumps, .live⟩ traced fuel = some f ∧ f.observed = outcome) ↔
      ∃ fuel s, tree.eval p fuel 0 m = some s ∧ s.observed = outcome := by
  obtain ⟨hat, hsize⟩ := Block.at_zero htree
  have hstart : m.moveTo 0 = m := by rw [← hpc]; rfl
  have hends : ∀ fuel s, tree.eval p fuel 0 m = some s →
      ∃ n ending m', EndsAfter ⟨p, jumps, .live⟩ n m ending m' ∧
        m'.observed ending = s.observed := by
    intro fuel s hs
    have hr := Block.eval_realizes h hat hc hs
    rw [Nat.zero_add, hsize] at hr
    have := hr.endsAfter
    rwa [hstart] at this
  rw [exists_run_iff]
  constructor
  · rintro ⟨n, ending, m', he, rfl⟩
    obtain ⟨fuel, s, hs⟩ := Block.exists_eval (m := m) h hat (by rwa [hstart]) hc
    obtain ⟨k, ending', m'', he', hout⟩ := hends fuel s hs
    obtain ⟨_, rfl, rfl⟩ := he.unique he'
    exact ⟨fuel, s, hs, hout.symm⟩
  · rintro ⟨fuel, s, hs, rfl⟩
    exact hends fuel s hs

/-- A program that has a jump table has a tree, and running the program from its beginning comes to
the same outcome as evaluating the tree, if it comes to one. -/
theorem run_observed_iff {p : Program} {jumps : JumpTable} (traced : Bool)
    (h : JumpTable.ofProgram p = .ok jumps) :
    ∃ tree, Block.ofInstructions? p.instructions = some tree ∧
      ∀ m : Machine, m.pc = 0 → m.control = none →
        (∀ outcome,
          (∃ fuel f, m.run ⟨p, jumps, .live⟩ traced fuel = some f ∧ f.observed = outcome) ↔
            ∃ fuel s, tree.eval p fuel 0 m = some s ∧ s.observed = outcome) ∧
        ((∀ fuel, m.run ⟨p, jumps, .live⟩ traced fuel = none) ↔
          ∀ fuel, tree.eval p fuel 0 m = none) := by
  obtain ⟨tree, htree⟩ :=
    Block.exists_ofInstructions?_iff.2 (JumpTable.balanced_of_ofProgram h)
  refine ⟨tree, htree, fun m hpc hc => ?_⟩
  have hiff := exists_run_iff_exists_eval traced h htree hpc hc
  refine ⟨hiff, fun hnone fuel => ?_, fun hnone fuel => ?_⟩
  · refine Option.eq_none_iff_forall_ne_some.2 fun s hs => ?_
    obtain ⟨fuel', f, hf, _⟩ := (hiff s.observed).2 ⟨fuel, s, hs, rfl⟩
    rw [hnone fuel'] at hf
    cases hf
  · refine Option.eq_none_iff_forall_ne_some.2 fun f hf => ?_
    obtain ⟨fuel', s, hs, _⟩ := (hiff f.observed).1 ⟨fuel, f, hf, rfl⟩
    rw [hnone fuel'] at hs
    cases hs

/-- The tree of `+[-]` is evaluated in four steps, two of them for the only round of the loop. -/
theorem run_observed_iff_round :
    let p : Program := ⟨#[⟨.increment, 0⟩, ⟨.loopOpen, 1⟩, ⟨.decrement, 2⟩, ⟨.loopClose, 3⟩]⟩
    let jumps : JumpTable := ⟨#[none, some 3, none, some 1], 1⟩
    let m : Machine := ⟨Tape.new 1 .wrap, 0, 0, [], {}, none⟩
    JumpTable.ofProgram p = .ok jumps ∧ m.pc = 0 ∧ m.control = none ∧
      ∃ tree, Block.ofInstructions? p.instructions = some tree ∧
        ∃ fuel s, tree.eval p fuel 0 m = some s ∧
          s.observed = ⟨.finished, Tape.new 1 .wrap, 4, [], {}⟩ := by
  intro p jumps m
  have h : JumpTable.ofProgram p = .ok jumps := rfl
  have hrun : m.run ⟨p, jumps, .live⟩ false 5 =
      some ⟨.finished, ⟨Tape.new 1 .wrap, 4, 4, [], {}, none⟩, #[]⟩ := by cbv
  obtain ⟨tree, htree, hall⟩ := run_observed_iff false h
  exact ⟨h, rfl, rfl, tree, htree, ((hall m rfl rfl).1 _).1 ⟨5, _, hrun, rfl⟩⟩

end Machine

end TapeMachine
