import TapeMachine.Proofs.Change
import TapeMachine.Proofs.Concatenation
import TapeMachine.Proofs.Parallel
import TapeMachine.Proofs.Trouble

/-!
# TapeMachine.Proofs.Sequence

The evaluation of two texts, one behind the other, is that of the first and then that of the second.

* `Output.rest`    — what an output would still take, as an output with nothing in it.
* `Output.behind`  — an output with what an earlier one has taken in front of it.
* `Machine.behind` — a machine that works on the second text, seen from the beginning of the first.
* `advance_append_left`, `parallel_append_right` — the steps in the first text and in the second.
* `EndsAfter.append_left`, `EndsAfter.finished_append` — from there an end in the first text, and
  the way from its end to the second.
* `runsTo_append`  — what the evaluation of both texts comes to.
-/

namespace TapeMachine

namespace Output

/-- The same lapse, `count` bytes earlier. -/
def Lapse.earlier (count : Nat) (l : Lapse) : Lapse := { l with place := l.place - count }

/-- An output that will do what this one would do from now on, with nothing in it. -/
def rest (o : Output) : Output where
  limit := o.limit.map (· - o.taken.size)
  refusal := o.refusal
  failingFlush := o.failingFlush.map (· - o.flushes)
  cancelAt := o.cancelAt.map (· - o.taken.size)
  lapses := (o.lapses.drop o.lapsed).map (·.earlier o.taken.size)

/-- What the output has taken, behind what the earlier one has taken. -/
def behind (o before : Output) : Output :=
  { before with
    taken := before.taken ++ o.taken
    flushes := before.flushes + o.flushes
    lapsed := before.lapsed + o.lapsed }

/-- The output does what the earlier one would do from now on. -/
structure Continues (o before : Output) : Prop where
  limit : o.limit = before.rest.limit
  refusal : o.refusal = before.refusal
  failingFlush : o.failingFlush = before.rest.failingFlush
  cancelAt : o.cancelAt = before.rest.cancelAt
  lapses : o.lapses = before.rest.lapses

theorem continues_rest (o : Output) : o.rest.Continues o := ⟨rfl, rfl, rfl, rfl, rfl⟩

theorem behind_rest (o : Output) : o.rest.behind o = o := by
  simp [behind, rest]

theorem push_behind (byte : UInt8) (o before : Output) :
    (o.behind before).push byte = (o.push byte).behind before := by
  simp [push, behind, Nat.add_assoc]

namespace Continues

variable {o before : Output} (h : o.Continues before)

include h

theorem brink_eq : o.brink = (o.behind before).brink.map (·.earlier before.taken.size) := by
  simp only [brink, behind, h.limit, h.refusal, h.lapses, rest, List.getElem?_map,
    List.getElem?_drop, Option.map_or, Option.map_map]
  rfl

theorem accepts_eq : (o.behind before).accepts = o.accepts := by
  rw [accepts, accepts, h.brink_eq]
  cases (o.behind before).brink with
  | none => rfl
  | some lapse =>
    simp only [Option.map_some, Option.all_some, behind, Array.size_append, Lapse.earlier,
      decide_eq_decide]
    omega

theorem complaint_eq : (o.behind before).complaint = o.complaint := by
  rw [complaint, complaint, h.brink_eq, h.refusal, Option.map_map]
  rfl

theorem lapse_behind : (o.behind before).lapse = o.lapse.behind before := by
  have hcount : (o.behind before).lapsed < (o.behind before).lapses.length ↔
      o.lapsed < o.lapses.length := by
    rw [h.lapses, rest, List.length_map, List.length_drop]
    simp only [behind]
    omega
  simp only [lapse, hcount]
  split <;> rfl

theorem flushFails_eq : (o.behind before).flushFails = o.flushFails := by
  have hflush := h.failingFlush
  simp only [flushFails, behind, hflush, rest]
  cases before.failingFlush with
  | none => rfl
  | some n =>
    rw [Bool.eq_iff_iff]
    simp
    omega

theorem cancels_eq : (o.behind before).cancels = o.cancels := by
  have hcancel := h.cancelAt
  simp only [cancels, behind, hcancel, rest]
  cases before.cancelAt with
  | none => rfl
  | some count =>
    simp only [Option.map_some, Array.size_append, decide_eq_decide]
    omega

theorem push (byte : UInt8) : (o.push byte).Continues before :=
  ⟨h.limit, h.refusal, h.failingFlush, h.cancelAt, h.lapses⟩

theorem lapse : o.lapse.Continues before := by
  unfold Output.lapse
  split
  · exact ⟨h.limit, h.refusal, h.failingFlush, h.cancelAt, h.lapses⟩
  · exact h

theorem sendByte_behind (byte : UInt8) :
    (o.behind before).sendByte byte =
      ((o.sendByte byte).1.behind before, (o.sendByte byte).2) := by
  rw [sendByte_eq, sendByte_eq, h.accepts_eq, h.flushFails_eq, push_behind, h.lapse_behind,
    h.complaint_eq]
  split <;> rfl

theorem sendByte (byte : UInt8) : (o.sendByte byte).1.Continues before := by
  rw [sendByte_eq]
  split
  · exact h.push byte
  · exact h.lapse

end Continues

end Output

namespace Machine

/-- The machine behind the steps and the output of an earlier one, and with `size` more instructions
in front of its program. -/
def behind (size : Nat) (m before : Machine) : Machine :=
  { m with
    pc := size + m.pc
    steps := before.steps + m.steps
    output := m.output.behind before.output }

/-- The machine stands under no control, and its output does what that of the earlier one would. -/
structure Follows (m before : Machine) : Prop where
  free : m.control = none
  output : m.output.Continues before.output

variable {first second : Job} {chars size : Nat} {i : Instruction} {m m' before : Machine}
  {ending : Ending} {n : Nat}

@[simp] theorem behind_pc : (m.behind size before).pc = size + m.pc := rfl

@[simp] theorem behind_tape : (m.behind size before).tape = m.tape := rfl

namespace Follows

variable (h : m.Follows before)

include h

theorem perform_behind (i : Instruction) (size : Nat) :
    (m.behind size before).perform i = ((m.perform i).1.behind size before, (m.perform i).2) := by
  have hsend := h.output.sendByte_behind m.tape.cell
  have hprompts : (m.behind size before).prompts i = m.prompts i := by
    cases i with
    | write =>
      simp only [prompts, behind, hsend]
      exact (h.output.sendByte m.tape.cell).cancels_eq
    | _ => rfl
  let c : Change :=
    { pc := (size + ·)
      steps := (before.steps + ·)
      output := (Output.behind · before.output) }
  have hhidden : c.Hidden i m :=
    ⟨Tape.commutes_id i m.tape, rfl, rfl, hsend,
      congrArg (fun now => m.control.map (·.cancelIf now)) hprompts⟩
  exact hhidden.perform

theorem perform (i : Instruction) : (m.perform i).1.Follows before := by
  refine ⟨(still_perform i m).control_eq_none h.free, ?_⟩
  by_cases hw : i = .write
  · subst hw
    rw [perform_write]
    exact h.output.sendByte _
  · rw [perform_output hw]
    exact h.output

theorem conclude (flow : Flow) (trouble : Option Trouble)
    (hsite : (first.append chars second).site (first.program.size + m.pc) =
      (second.site m.pc).relocated first.program.size chars) :
    Step.Matches (fun ending ending' => ending' = ending.relocated first.program.size chars)
      (fun m m' => m.Follows before ∧ m' = m.behind first.program.size before)
      (conclude second flow (m, trouble))
      (conclude (first.append chars second) (flow.relocated first.program.size)
        (m.behind first.program.size before, trouble)) := by
  cases trouble with
  | none =>
    refine .next ⟨⟨h.free, h.output⟩, ?_⟩
    simp only [behind, Flow.counter_relocated]
    rfl
  | some trouble =>
    refine .stop ?_ ⟨h, rfl⟩
    rw [Ending.relocated, Trouble.relocated_failure, ← hsite]
    rfl

end Follows

section

variable (hsize : first.jumps.targets.size = first.program.size)

include hsize

/-! ## Steps in the first text -/

/-- What stands behind the first text makes no difference there. -/
theorem advance_append_left (hpc : m.pc < first.program.size) (chars : Nat) (second : Job) :
    m.advance (first.append chars second) = m.advance first := by
  have hi := Program.instruction?_append_left hpc chars second.program
  have hflow := Job.flow?_append_left hsize hpc chars second m.tape.cell
  have hsite := Job.site_append_left hpc chars second
  have hmode : (first.append chars second).mode = first.mode := rfl
  refine (eq_of_matches (matches_advance hmode hi hflow (fun _ _ => rfl) rfl ?_)).symm
  intro i trouble _
  rw [hsite]

theorem after_append_left (h : m.after first n = some m') (chars : Nat) (second : Job) :
    m.after (first.append chars second) n = some m' := by
  refine after_map (f := id) (fun {m m'} hs => ?_) h
  -- Where there is a step the counter is in the first text.
  obtain ⟨i, hp, _⟩ := advance_next hs
  have hpc := Program.lt_size_of_instruction? (pending_eq_ok_iff.1 hp).1
  exact (advance_append_left hsize hpc chars second).trans hs

theorem EndsAfter.append_left (he : EndsAfter first n m ending m') (hne : ending ≠ .finished)
    (chars : Nat) (second : Job) : EndsAfter (first.append chars second) n m ending m' := by
  obtain ⟨last, hlast, hstop⟩ := he
  have hpc : last.pc < first.program.size := by
    refine Nat.lt_of_not_le fun hle => ?_
    have hend := Program.instruction?_eq_none_iff.2 hle
    rw [advance_of_pending_error (pending_of_end hend)] at hstop
    cases hstop
    exact hne rfl
  exact ⟨last, after_append_left hsize hlast chars second,
    (advance_append_left hsize hpc chars second).trans hstop⟩

end

/-- From the end of the first text the machine goes on with the second. -/
theorem EndsAfter.finished_append (ht : JumpTable.ofProgram first.program = .ok first.jumps)
    (hpc : m.pc ≤ first.program.size) (he : EndsAfter first n m .finished m') (chars : Nat)
    (second : Job) :
    m.after (first.append chars second) n = some m' ∧ m'.pc = first.program.size := by
  obtain ⟨last, hlast, hstop⟩ := he
  have hcounter := (Reachable.start.proceeds (.of_after hlast)).counter ht hpc
  have hends := endsInBounds_of_stop ht hcounter hstop
  refine ⟨?_, hends.finished rfl⟩
  rcases advance_stop hstop with ⟨_, rfl⟩ | ⟨i, hp, hstep⟩
  · exact after_append_left (JumpTable.size_targets ht) hlast chars second
  · -- A step that ends the evaluation fails.
    obtain ⟨trouble, hending⟩ := trouble_of_step_stop ht (pending_eq_ok_iff.1 hp).1 hstep
    cases hending

/-! ## Steps in the second text -/

/-- A machine in the second text does what it would do if there was nothing in front of it. -/
theorem parallel_append_right (hsize : first.jumps.targets.size = first.program.size)
    (hlive : first.mode = .live) (hlive' : second.mode = .live) (chars : Nat) (before : Machine) :
    Parallel second (first.append chars second)
      (fun ending ending' => ending' = ending.relocated first.program.size chars)
      (fun m m' => m.Follows before ∧ m' = m.behind first.program.size before) := by
  rintro m _ ⟨h, rfl⟩
  have hat := Program.instruction?_append_right first.program chars second.program m.pc
  cases hi : second.program.instruction? m.pc with
  | none =>
    rw [advance_of_pending_error (pending_of_end hi),
      advance_of_pending_error (pending_of_end (hat.trans hi))]
    exact .stop rfl ⟨h, rfl⟩
  | some i =>
    have hp : m.pending second = .ok i := pending_of_permitted hi (permitted_of_free h.free)
    have hp' : (m.behind first.program.size before).pending (first.append chars second) = .ok i :=
      pending_of_permitted (hat.trans hi) (permitted_of_free h.free)
    rw [advance_of_pending hp, advance_of_pending hp']
    have hflow := Job.flow?_append_right hsize chars second m.pc m.tape.cell i
    have hperform := h.perform_behind i first.program.size
    have hfollows := h.perform i
    have hstill := still_perform i m
    have hsite := Job.site_append_right hi first chars
    cases hf : second.flow? m.pc m.tape.cell i with
    | none =>
      rw [hf] at hflow
      simp only [step, hf, behind, hflow]
      exact .stop rfl ⟨h, rfl⟩
    | some flow =>
      rw [hf] at hflow
      have hmode : (first.append chars second).mode = .live := hlive
      rw [← hstill.pc] at hsite
      simp only [step, hf, behind_pc, behind_tape, hflow, hmode, hlive', hperform]
      exact hfollows.conclude flow _ hsite

/-! ## From the one text to the other -/

/-- The machine that begins with the second text, on the tape that the first has left and with what
is left of input and output. -/
def following (m : Machine) : Machine := ⟨m.tape, 0, 0, m.input, m.output.rest, none⟩

theorem follows_following (m : Machine) : m.following.Follows m := ⟨rfl, m.output.continues_rest⟩

theorem following_behind (hpc : m.pc = size) (hfree : m.control = none) :
    m.following.behind size m = m := by
  obtain ⟨tape, pc, steps, input, output, control⟩ := m
  obtain rfl : pc = size := hpc
  obtain rfl : control = none := hfree
  simp only [following, behind, Output.behind_rest, Nat.add_zero]

end Machine

namespace Interpreter

open Machine

variable {P Q : String} {p q : Program} {t u : JumpTable}

/-- Two texts that are programs are a program, one behind the other, and its evaluation is that of
the first and then that of the second. If the first fails or comes to no end, so does the whole, and
leaves the same machine. If the first comes to its end, the whole comes to what the second comes to
on the tape that it finds and with what is left of input and output. The places that a failure
blames, the counter, the number of steps and the output are then seen from the beginning of the
first. -/
theorem runsTo_append (hp : read P = .ok (p, t)) (hq : read Q = .ok (q, u)) :
    let first : Job := ⟨p, t, .live⟩
    let second : Job := ⟨q, u, .live⟩
    let both : Job := ⟨p.append P.length q, t.append p.size u, .live⟩
    read (P ++ Q) = .ok (both.program, both.jumps) ∧
      ∀ (traced : Bool) (tape : Tape) (input : Input) (output : Output),
        let m : Machine := ⟨tape, 0, 0, input, output, none⟩
        (∀ ending m', m.RunsTo first traced ending m' → ending ≠ .finished →
            m.RunsTo both traced ending m') ∧
          (m.Endless first traced → m.Endless both traced) ∧
          ∀ m', m.RunsTo first traced .finished m' →
            (∀ ending final, m'.following.RunsTo second traced ending final →
                m.RunsTo both traced (ending.relocated p.size P.length)
                  (final.behind p.size m')) ∧
              (m.Endless both traced ↔ m'.following.Endless second traced) := by
  intro first second both
  have ht : JumpTable.ofProgram first.program = .ok first.jumps := (read_eq_ok hp).2
  have hsize := JumpTable.size_targets ht
  refine ⟨read_append hp hq, fun traced tape input output => ?_⟩
  intro m
  refine ⟨fun ending m' hrun hne => ?_, fun hendless => ?_, fun m' hrun => ?_⟩
  · obtain ⟨n, he⟩ := (runsTo_iff rfl).1 hrun
    exact (runsTo_iff rfl).2 ⟨n, he.append_left hsize hne P.length second⟩
  · rw [endless_iff_of_begin rfl] at hendless ⊢
    intro n
    obtain ⟨m₁, hm₁⟩ := Option.ne_none_iff_exists'.1 (hendless n)
    have hboth := after_append_left hsize hm₁ P.length second
    exact hboth ▸ Option.some_ne_none m₁
  · obtain ⟨n, he⟩ := (runsTo_iff rfl).1 hrun
    obtain ⟨hreach, hpc⟩ := he.finished_append ht (Nat.zero_le _) P.length second
    have hfree : m'.control = none := (kin_of_after hreach).control_eq_none rfl
    have hlive : second.mode = .live := rfl
    have hparallel := parallel_append_right hsize rfl hlive P.length m'
    have hstart : m'.following.Follows m' ∧ m' = m'.following.behind first.program.size m' :=
      ⟨follows_following m', (following_behind hpc hfree).symm⟩
    refine ⟨fun ending final hrest => ?_, ?_⟩
    · obtain ⟨k, hk⟩ := (runsTo_iff rfl).1 hrest
      obtain ⟨_, _, hk', rfl, _, rfl⟩ := hparallel.endsAfter hstart hk
      exact (runsTo_iff rfl).2 ⟨n + k, .of_after hreach hk'⟩
    · exact (endless_iff_of_after rfl hreach).trans
        (hparallel.endless_iff rfl rfl hstart traced traced)

/-- On a tape of one cell `+[-.]` comes to its end, and the last instruction of `é[-]>` overruns it:
that is the instruction 8 of the whole, and the character 9. -/
theorem runsTo_append_overrun :
    let p : Program := ⟨#[⟨.increment, 0⟩, ⟨.loopOpen, 1⟩, ⟨.decrement, 2⟩, ⟨.write, 3⟩,
      ⟨.loopClose, 4⟩]⟩
    let t : JumpTable := ⟨#[none, some 4, none, none, some 1], 1⟩
    let q : Program := ⟨#[⟨.loopOpen, 1⟩, ⟨.decrement, 2⟩, ⟨.loopClose, 3⟩, ⟨.moveRight, 4⟩]⟩
    let u : JumpTable := ⟨#[some 2, none, some 0, none], 1⟩
    let m : Machine := ⟨Tape.new 1 .strict, 0, 0, [], {}, none⟩
    let m' : Machine := ⟨Tape.new 1 .strict, 5, 5, [], { taken := #[0], flushes := 1 }, none⟩
    let final : Machine := ⟨Tape.new 1 .strict, 3, 1, [], {}, none⟩
    let both : Job := ⟨p.append 5 q, t.append 5 u, .live⟩
    read "+[-.]" = .ok (p, t) ∧ read "é[-]>" = .ok (q, u) ∧
      both.jumps = ⟨#[none, some 4, none, none, some 1, some 7, none, some 5, none], 2⟩ ∧
      m.RunsTo ⟨p, t, .live⟩ false .finished m' ∧
      m'.following.RunsTo ⟨q, u, .live⟩ false (.failed (.overrun ⟨3, 4⟩ (.pastLast 0))) final ∧
      read ("+[-.]" ++ "é[-]>") = .ok (both.program, both.jumps) ∧
      m.RunsTo both false (.failed (.overrun ⟨8, 9⟩ (.pastLast 0)))
        ⟨Tape.new 1 .strict, 8, 6, [], { taken := #[0], flushes := 1 }, none⟩ := by
  intro p t q u m m' final both
  have hp : read "+[-.]" = .ok (p, t) := rfl
  have hq : read "é[-]>" = .ok (q, u) := rfl
  have hjumps : both.jumps =
      ⟨#[none, some 4, none, none, some 1, some 7, none, some 5, none], 2⟩ := by
    simp [both, JumpTable.append, t, u]
  have hfirst : m.RunsTo ⟨p, t, .live⟩ false .finished m' := by
    refine ⟨6, #[], ?_⟩
    simp only [p, t, m, m']
    rfl
  have hsecond : m'.following.RunsTo ⟨q, u, .live⟩ false
      (.failed (.overrun ⟨3, 4⟩ (.pastLast 0))) final := by
    refine ⟨2, #[], ?_⟩
    simp only [q, u, m', final]
    rfl
  obtain ⟨hread, hruns⟩ := runsTo_append hp hq
  obtain ⟨_, _, hfinished⟩ := hruns false (Tape.new 1 .strict) [] {}
  exact ⟨hp, hq, hjumps, hfirst, hsecond, hread, (hfinished m' hfirst).1 _ final hsecond⟩

end Interpreter

end TapeMachine
