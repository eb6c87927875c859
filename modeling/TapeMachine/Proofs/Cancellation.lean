import TapeMachine.Proofs.Bounds

/-!
# TapeMachine.Proofs.Cancellation

A cancellation takes effect at the end of the step in which the flag is set.

* `Machine.Passes`   — the machines that an evaluation comes through, the last one included.
* `Machine.SetsFlag` — the step in which the flag is set for the first time.
* `canceled_step`    — only a read or a write can be such a step, and only if it is prompted.
* `exists_setsFlag`  — if the flag is set at any time, there is such a step. By induction on the
  number of steps.
* `runsTo_canceled`  — what becomes of the evaluation: the step fails, or it ends the program, or
  the evaluation is cancelled behind it, whatever the step limit says.
-/

namespace TapeMachine

def Step.machine : Step → Machine
  | next m => m
  | stop _ m => m

namespace Machine

/-- The evaluation of `m` comes through `m'`, be it between two steps or at the end. -/
def Passes (job : Job) (m m' : Machine) : Prop :=
  ∃ n, m.after job n = some m' ∨ ∃ ending, EndsAfter job n m ending m'

/-- After `k` steps the flag has not been set at any time, then `last` carries out the instruction
`i`, and with that the flag is set. -/
structure SetsFlag (job : Job) (k : Nat) (m last : Machine) (i : Instruction) : Prop where
  after : m.after job k = some last
  unset : ∀ j ≤ k, ∀ m', m.after job j = some m' → m'.canceled = false
  pending : last.pending job = .ok i
  set : (last.step job i).machine.canceled = true

variable {job : Job} {i : Instruction} {m m' m'' last : Machine} {ending : Ending} {n k : Nat}

theorem prompts_of_flow?_eq_none {ip : Nat} {cell : UInt8} (h : job.flow? ip cell i = none)
    (m : Machine) : m.prompts i = false := by
  cases i with
  | read => cases h
  | write => cases h
  | _ => rfl

theorem canceled_step (hlive : job.mode = .live) (i : Instruction) (m : Machine) :
    (m.step job i).machine.canceled = (m.canceled || m.control.isSome && m.prompts i) := by
  rw [step, hlive]
  cases hf : job.flow? m.pc m.tape.cell i with
  | none => simp [Step.machine, prompts_of_flow?_eq_none hf]
  | some flow =>
    rw [← canceled_perform]
    cases m.perform i with
    | mk m₁ trouble => cases trouble <;> rfl

theorem read_or_write_of_prompts (h : m.prompts i = true) : i = .read ∨ i = .write := by
  cases i with
  | read => exact .inl rfl
  | write => exact .inr rfl
  | _ => cases h

theorem SetsFlag.prompted (hlive : job.mode = .live) (hs : SetsFlag job k m last i) :
    last.prompts i = true := by
  have hset := hs.set
  rw [canceled_step hlive, hs.unset k (Nat.le_refl k) last hs.after] at hset
  simp only [Bool.false_or, Bool.and_eq_true] at hset
  exact hset.2

theorem SetsFlag.of_next (hflag : m.canceled = false) (h : m.advance job = .next m')
    (hs : SetsFlag job k m' last i) : SetsFlag job (k + 1) m last i where
  after := (after_succ h).trans hs.after
  unset j hj m'' hm'' := by
    cases j with
    | zero => cases hm''; exact hflag
    | succ j =>
      rw [after_succ h] at hm''
      exact hs.unset j (by omega) m'' hm''
  pending := hs.pending
  set := hs.set

theorem setsFlag_zero (hflag : m.canceled = false) (hi : m.pending job = .ok i)
    (hset : (m.step job i).machine.canceled = true) : SetsFlag job 0 m m i where
  after := rfl
  unset j hj m'' hm'' := by
    obtain rfl : j = 0 := by omega
    cases hm''
    exact hflag
  pending := hi
  set := hset

theorem exists_setsFlag_of_after (hflag : m.canceled = false) (h : m.after job n = some m')
    (hset : m'.canceled = true) : ∃ k last i, SetsFlag job k m last i := by
  induction n generalizing m with
  | zero =>
    cases h
    rw [hflag] at hset
    cases hset
  | succ n ih =>
    obtain ⟨m₁, hs, hrest⟩ := exists_of_after_succ h
    cases hflag₁ : m₁.canceled with
    | true =>
      obtain ⟨i, hi, hstep⟩ := advance_next hs
      have hset₁ : (m.step job i).machine.canceled = true := by
        rw [hstep]
        exact hflag₁
      exact ⟨0, m, i, setsFlag_zero hflag hi hset₁⟩
    | false =>
      obtain ⟨k, last, i, hk⟩ := ih hflag₁ hrest
      exact ⟨k + 1, last, i, hk.of_next hflag hs⟩

theorem exists_setsFlag (hflag : m.canceled = false) (h : m.Passes job m')
    (hset : m'.canceled = true) : ∃ k last i, SetsFlag job k m last i := by
  by_cases hearly : ∃ j m'', m.after job j = some m'' ∧ m''.canceled = true
  · obtain ⟨j, m'', hj, hset'⟩ := hearly
    exact exists_setsFlag_of_after hflag hj hset'
  · -- No step that succeeds sets the flag, so it is the one that fails.
    have hunset : ∀ j m'', m.after job j = some m'' → m''.canceled = false := by
      intro j m'' hj
      cases hset' : m''.canceled with
      | false => rfl
      | true => exact absurd ⟨j, m'', hj, hset'⟩ hearly
    obtain ⟨n, hn | ⟨ending, last, hlast, hstop⟩⟩ := h
    · rw [hunset n m' hn] at hset
      cases hset
    · rcases advance_stop hstop with ⟨_, rfl⟩ | ⟨i, hi, hstep⟩
      · rw [hunset n m' hlast] at hset
        cases hset
      · have hset' : (last.step job i).machine.canceled = true := by
          rw [hstep]
          exact hset
        exact ⟨n, last, i, hlast, fun j _ => hunset j, hi, hset'⟩

/-! ## The end of the evaluation -/

theorem SetsFlag.endsAfter_stop (hs : SetsFlag job k m last i)
    (hstep : last.step job i = .stop ending m') : EndsAfter job k m ending m' :=
  ⟨last, hs.after, (advance_of_pending hs.pending).trans hstep⟩

/-- Behind a step that sets the flag only the end of the program counts for more than the flag. -/
theorem SetsFlag.endsAfter_next (h : JumpTable.ofProgram job.program = .ok job.jumps)
    (hs : SetsFlag job k m last i) (hstep : last.step job i = .next m') :
    EndsAfter job (k + 1) m
      (if m'.pc = job.program.size then .finished else .failed .canceled) m' := by
  have hadvance : last.advance job = .next m' := (advance_of_pending hs.pending).trans hstep
  have hflag : m'.canceled = true := by
    have hset := hs.set
    rwa [hstep] at hset
  refine .of_after hs.after (.succ hadvance (.zero (advance_of_pending_error ?_)))
  split
  · rename_i hpc
    exact pending_of_end (Program.instruction?_eq_none_iff.2 (Nat.le_of_eq hpc.symm))
  · rename_i hpc
    have hle := counter_of_next h hadvance
    have hlt : m'.pc < job.program.size := Nat.lt_of_le_of_ne hle hpc
    obtain ⟨i', hi'⟩ := Program.exists_instruction? hlt
    exact pending_of_canceled hi' hflag

/-- If the flag is set at any time during an evaluation, it is first set in a read or a write that
prompts it. If that step fails, the evaluation ends with its trouble; if not, it ends right behind
it, finished at the end of the program and cancelled everywhere else, whatever the limit is. A flag
that is set beforehand lets no instruction of the program be carried out. -/
theorem runsTo_canceled {p : Program} {jumps : JumpTable} (h : JumpTable.ofProgram p = .ok jumps)
    {m : Machine} {control : Control} (hc : m.control = some control) (traced : Bool) :
    (control.canceled = false →
      ∀ m₁, m.Passes ⟨p, jumps, .live⟩ m₁ → m₁.canceled = true →
        ∃ k last i, SetsFlag ⟨p, jumps, .live⟩ k m last i ∧ (i = .read ∨ i = .write) ∧
          last.prompts i = true ∧
          (∀ ending m', last.step ⟨p, jumps, .live⟩ i = .stop ending m' →
            m.RunsTo ⟨p, jumps, .live⟩ traced ending m') ∧
          ∀ m', last.step ⟨p, jumps, .live⟩ i = .next m' →
            m.RunsTo ⟨p, jumps, .live⟩ traced
              (if m'.pc = p.size then .finished else .failed .canceled) m') ∧
    (control.canceled = true → m.pc < p.size →
      m.RunsTo ⟨p, jumps, .live⟩ traced (.failed .canceled) m) := by
  simp only [runsTo_iff]
  constructor
  · intro hflag m₁ hpasses hset
    have hunset : m.canceled = false := by
      rw [canceled, hc]
      exact hflag
    obtain ⟨k, last, i, hs⟩ := exists_setsFlag hunset hpasses hset
    have hprompts := hs.prompted rfl
    refine ⟨k, last, i, hs, read_or_write_of_prompts hprompts, hprompts, ?_, ?_⟩
    · intro ending m' hstep
      exact ⟨k, hs.endsAfter_stop hstep⟩
    · intro m' hstep
      exact ⟨k + 1, hs.endsAfter_next h hstep⟩
  · intro hflag hpc
    have hset : m.canceled = true := by
      rw [canceled, hc]
      exact hflag
    obtain ⟨i, hi⟩ := Program.exists_instruction? hpc
    exact ⟨0, .zero (advance_of_pending_error (pending_of_canceled hi hset))⟩

/-- In `,+` somebody cancels during the read, after which the limit is reached as well. -/
theorem runsTo_canceled_at_limit :
    let p : Program := ⟨#[⟨.read, 0⟩, ⟨.increment, 1⟩]⟩
    let jumps : JumpTable := ⟨#[none, none], 0⟩
    let control : Control := { maxSteps := some 1 }
    let m : Machine := ⟨Tape.new 1 .wrap, 0, 0, [.cancel, .byte 7], {}, some control⟩
    let m₁ : Machine :=
      ⟨(Tape.new 1 .wrap).store 7, 1, 1, [], {}, some (control.cancelIf true)⟩
    JumpTable.ofProgram p = .ok jumps ∧ m.control = some control ∧ control.canceled = false ∧
      m.Passes ⟨p, jumps, .live⟩ m₁ ∧ m₁.canceled = true ∧
      (∃ k last i, SetsFlag ⟨p, jumps, .live⟩ k m last i ∧ (i = .read ∨ i = .write) ∧
        last.prompts i = true ∧
        (∀ ending m', last.step ⟨p, jumps, .live⟩ i = .stop ending m' →
          m.RunsTo ⟨p, jumps, .live⟩ false ending m') ∧
        ∀ m', last.step ⟨p, jumps, .live⟩ i = .next m' →
          m.RunsTo ⟨p, jumps, .live⟩ false
            (if m'.pc = p.size then .finished else .failed .canceled) m') ∧
      m₁.pc < p.size ∧ m₁.RunsTo ⟨p, jumps, .live⟩ false (.failed .canceled) m₁ := by
  intro p jumps control m m₁
  have h : JumpTable.ofProgram p = .ok jumps := rfl
  have hpasses : m.Passes ⟨p, jumps, .live⟩ m₁ := ⟨1, .inl rfl⟩
  have hpc : m₁.pc < p.size := by decide
  exact ⟨h, rfl, rfl, hpasses, rfl, (runsTo_canceled h rfl false).1 rfl m₁ hpasses rfl, hpc,
    (runsTo_canceled h rfl false).2 rfl hpc⟩

end Machine

end TapeMachine
