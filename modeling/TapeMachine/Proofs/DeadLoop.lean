import TapeMachine.Proofs.Endings
import TapeMachine.Proofs.Insertion

/-!
# TapeMachine.Proofs.DeadLoop

A loop that stands right behind another one, or at the beginning of a text, is never entered.

* `Machine.Pursues`  — one machine makes a step, or several, for every step of another.
* `Pursues.after`, `Pursues.endsAfter`, `Pursues.endless_iff` — so it comes to a corresponding end,
  or both come to none.
* `Detour.counter`   — the counter of the longer program goes where that of the shorter one goes,
  or to the loop that was put in, and then the cell under the pointer is zero.
* `Detour.pursues`   — so a machine in the longer program makes the same steps, and one more
  whenever it comes to that loop.
* `Interpreter.evaluatesTo_detour` — the loop makes no difference.
-/

namespace TapeMachine

namespace Machine

/-- Of two related machines the second makes one step or more for every step of the first, and ends
when the first does. -/
structure Pursues (job job' : Job) (E : Ending → Ending → Prop) (R : Machine → Machine → Prop) :
    Prop where
  next : ∀ {m m' m₁}, R m m' → m.advance job = .next m₁ →
    ∃ k m₁', m'.after job' (k + 1) = some m₁' ∧ R m₁ m₁'
  stop : ∀ {m m' m₁ ending}, R m m' → m.advance job = .stop ending m₁ →
    ∃ ending' m₁', m'.advance job' = .stop ending' m₁' ∧ E ending ending' ∧ R m₁ m₁'

variable {job job' : Job} {m m' m₁ final : Machine} {ending : Ending} {n : Nat}

namespace Pursues

variable {E : Ending → Ending → Prop} {R : Machine → Machine → Prop} (hp : Pursues job job' E R)

include hp

theorem after (h : R m m') (hn : m.after job n = some m₁) :
    ∃ k m₁', n ≤ k ∧ m'.after job' k = some m₁' ∧ R m₁ m₁' := by
  induction n generalizing m m' with
  | zero =>
    cases hn
    exact ⟨0, m', Nat.le_refl 0, rfl, h⟩
  | succ n ih =>
    obtain ⟨m₂, hs, hrest⟩ := exists_of_after_succ hn
    obtain ⟨k, m₂', hk, h₂⟩ := hp.next h hs
    obtain ⟨l, m₁', hle, hl, h₁⟩ := ih h₂ hrest
    exact ⟨k + 1 + l, m₁', by omega, (after_add hk l).trans hl, h₁⟩

theorem endsAfter (h : R m m') (he : EndsAfter job n m ending final) :
    ∃ k ending' final', EndsAfter job' k m' ending' final' ∧ E ending ending' ∧
      R final final' := by
  obtain ⟨last, hlast, hstop⟩ := he
  obtain ⟨k, last', _, hlast', h₁⟩ := hp.after h hlast
  obtain ⟨ending', final', hstop', hending, h₂⟩ := hp.stop h₁ hstop
  exact ⟨k, ending', final', ⟨last', hlast', hstop'⟩, hending, h₂⟩

theorem endless_iff (hb : m.begin job = (m, none)) (hb' : m'.begin job' = (m', none))
    (h : R m m') (traced traced' : Bool) :
    m'.Endless job' traced' ↔ m.Endless job traced := by
  constructor
  · intro hendless
    rw [endless_iff_not_runsTo] at hendless ⊢
    intro ending final hrun
    obtain ⟨n, he⟩ := (runsTo_iff_of_begin hb).1 hrun
    obtain ⟨k, ending', final', he', _⟩ := hp.endsAfter h he
    exact hendless ending' final' ((runsTo_iff_of_begin hb').2 ⟨k, he'⟩)
  · intro hendless
    rw [endless_iff_not_runsTo]
    rw [endless_iff_of_begin hb] at hendless
    intro ending' final' hrun
    obtain ⟨n, he⟩ := (runsTo_iff_of_begin hb').1 hrun
    -- The second machine would have to make more steps than it makes in all.
    obtain ⟨m₁, hm₁⟩ := Option.ne_none_iff_exists'.1 (hendless (n + 1))
    obtain ⟨k, m₁', hle, hk, _⟩ := hp.after h hm₁
    obtain ⟨l, hl, _⟩ := he.drop hk
    omega

end Pursues

/-- The machine in the longer program, with a number of steps of its own. -/
def detoured (index size steps : Nat) (m : Machine) : Machine :=
  { m with pc := across index size m.pc, steps := steps }

theorem perform_detoured (index size steps : Nat) (i : Instruction) (m : Machine) :
    (m.detoured index size steps).perform i =
      ((m.perform i).1.detoured index size steps, (m.perform i).2) := by
  have h : Change.Hidden { pc := across index size, steps := fun _ => steps } i m :=
    ⟨Tape.commutes_id i m.tape, rfl, rfl, rfl, rfl⟩
  exact h.perform

end Machine

namespace Job

open Machine

variable {short long : Job} {index size chars ip steps : Nat} {i : Instruction} {cell : UInt8}
  {flow : Flow} {m m' : Machine} {ending : Ending}

theorem flow?_past {closing : Nat} (hf : short.flow? ip cell i = some (.past closing)) :
    i = .loopOpen ∧ cell = 0 := by
  cases i with
  | loopOpen =>
    rw [flow?] at hf
    split at hf
    · rename_i hz
      exact ⟨rfl, hz⟩
    · cases hf
  | loopClose =>
    rw [flow?] at hf
    split at hf
    · cases hf
    · obtain ⟨_, _, hback⟩ := Option.map_eq_some_iff.1 hf
      cases hback
  | _ => cases hf

theorem flow?_leave (hf : short.flow? ip cell .loopClose = some .onward) : cell = 0 := by
  rw [flow?] at hf
  split at hf
  · rename_i hz
    exact hz
  · obtain ⟨_, _, hback⟩ := Option.map_eq_some_iff.1 hf
    cases hback

namespace Detour

variable (h : short.Detour long index size chars)

include h

/-- To the place behind the first loop, where the other one was put in, there are two ways: from the
`[` of the first and from its `]`. Both are taken on a zero only. -/
theorem counter (hi : short.program.instruction? ip = some i)
    (hf : short.flow? ip cell i = some flow) :
    (flow.map (across index size)).counter (across index size ip) =
        across index size (flow.counter ip) ∨
      (flow.map (across index size)).counter (across index size ip) = index ∧
        flow.counter ip = index ∧ cell = 0 ∧ i.isBracket = true := by
  have hclose : ∀ ip, ip + 1 ≠ index → across index size ip + 1 = across index size (ip + 1) := by
    intro ip hne
    simp only [across]
    split <;> split <;> omega
  cases flow with
  | back opening => exact .inl rfl
  | onward =>
    by_cases hip : ip + 1 = index
    · cases hi.symm.trans (h.behind ip hip)
      have hlt : ip < index := by omega
      refine .inr ⟨?_, hip, flow?_leave hf, rfl⟩
      rw [across_of_lt hlt]
      exact hip
    · exact .inl (hclose ip hip)
  | past closing =>
    obtain ⟨rfl, hz⟩ := flow?_past hf
    by_cases hip : closing + 1 = index
    · have hlt : closing < index := by omega
      refine .inr ⟨?_, hip, hz, rfl⟩
      rw [Flow.map, across_of_lt hlt]
      exact hip
    · exact .inl (hclose closing hip)

theorem skip (hc : m.control = none) (hz : m.tape.cell = 0) (hpc : m.pc = index) :
    m.advance long = .next { m with pc := size + index, steps := m.steps + 1 } := by
  obtain ⟨closing, hclosing, hbehind⟩ := h.closes
  have hpending : m.pending long = .ok .loopOpen := by
    refine pending_of_permitted ?_ (permitted_of_free hc)
    rw [hpc]
    exact h.opens
  have hflow : long.flow? m.pc m.tape.cell .loopOpen = some (.past closing) := by
    rw [Job.flow?, if_pos hz, hpc, hclosing]
    rfl
  rw [advance_of_pending hpending, ← hbehind]
  simp only [step, hflow, h.longLive]
  rfl

theorem pending (hc : m.control = none) (hi : short.program.instruction? m.pc = some i)
    (steps : Nat) : (m.detoured index size steps).pending long = .ok i :=
  pending_of_permitted ((h.instruction m.pc).trans hi) (permitted_of_free hc)

theorem advance_next (hc : m.control = none) (hs : m.advance short = .next m') (steps : Nat) :
    ∃ k steps', (m.detoured index size steps).after long (k + 1) =
      some (m'.detoured index size steps') := by
  obtain ⟨i, hp, hstep⟩ := Machine.advance_next hs
  have hi := (pending_eq_ok_iff.1 hp).1
  obtain ⟨flow, m₁, hf, hperform, rfl⟩ := step_live_next h.shortLive hstep
  have hpc := (still_perform i m).pc
  rw [hperform] at hpc
  have hf' : long.flow? (m.detoured index size steps).pc (m.detoured index size steps).tape.cell i =
      some (flow.map (across index size)) := by
    have hflow := h.flow? m.pc m.tape.cell i
    rwa [hf] at hflow
  have hperform' : (m.detoured index size steps).perform i =
      (m₁.detoured index size steps, none) := by
    rw [perform_detoured, hperform]
  have hadvance : (m.detoured index size steps).advance long =
      .next { m₁ with
        pc := (flow.map (across index size)).counter (across index size m.pc)
        steps := steps + 1 } := by
    rw [advance_of_pending (h.pending hc hi steps)]
    simp only [step, hf', h.longLive, hperform', conclude]
    rw [← hpc]
    rfl
  rcases h.counter hi hf with hsame | ⟨hindex, hcounter, hz, hbracket⟩
  · refine ⟨0, steps + 1, after_one (hadvance.trans ?_)⟩
    rw [hsame, ← hpc]
    rfl
  · -- The machine has come to the loop that was put in, and a step more takes it past that.
    have hsame : m₁ = m := by
      cases i with
      | loopOpen => exact (congrArg Prod.fst hperform).symm
      | loopClose => exact (congrArg Prod.fst hperform).symm
      | _ => cases hbracket
    subst hsame
    rw [hindex] at hadvance
    have hskip := h.skip (m := { m₁ with pc := index, steps := steps + 1 }) hc hz rfl
    refine ⟨1, steps + 2, (after_succ hadvance).trans ((after_one hskip).trans ?_)⟩
    rw [detoured]
    simp only [hcounter, across_of_le (Nat.le_refl index)]

theorem advance_stop (hc : m.control = none) (hs : m.advance short = .stop ending m')
    (steps : Nat) :
    (m.detoured index size steps).advance long =
      .stop (ending.mapSite (Site.across index size chars)) (m'.detoured index size steps) := by
  cases hi : short.program.instruction? m.pc with
  | none =>
    have hend : (m.detoured index size steps).pending long = .error .finished :=
      pending_of_end ((h.instruction m.pc).trans hi)
    rw [advance_of_pending_error (pending_of_end hi)] at hs
    cases hs
    exact advance_of_pending_error hend
  | some i =>
    rw [advance_of_pending (pending_of_permitted hi (permitted_of_free hc))] at hs
    rw [advance_of_pending (h.pending hc hi steps)]
    have hpc := (step_stop hs).1.pc
    have hflow : long.flow? (m.detoured index size steps).pc
        (m.detoured index size steps).tape.cell i =
          (short.flow? m.pc m.tape.cell i).map (Flow.map (across index size)) :=
      h.flow? m.pc m.tape.cell i
    cases hf : short.flow? m.pc m.tape.cell i with
    | none =>
      rw [hf] at hflow
      rw [step, hf] at hs
      cases hs
      rw [step, hflow]
      rfl
    | some flow =>
      rw [hf] at hflow
      rcases step_live_stop h.shortLive hs with ⟨_, hnone⟩ | ⟨trouble, rfl, hperform⟩
      · cases hf.symm.trans hnone
      · have hsite : long.site (m'.detoured index size steps).pc =
            (short.site m.pc).across index size chars := by
          rw [← h.site m.pc i hi, ← hpc]
          rfl
        simp only [step, hflow, Option.map_some, h.longLive, perform_detoured, hperform, conclude,
          hsite, Ending.mapSite, Trouble.mapSite_failure]

theorem pursues :
    Pursues short long (fun ending ending' => ending' = ending.mapSite (.across index size chars))
      (fun m m' => m.control = none ∧ ∃ steps, m' = m.detoured index size steps) where
  next := by
    rintro m _ m₁ ⟨hc, steps, rfl⟩ hs
    obtain ⟨k, steps', hk⟩ := h.advance_next hc hs steps
    exact ⟨k, _, hk, (kin_of_next hs).control_eq_none hc, steps', rfl⟩
  stop := by
    rintro m _ m₁ ending ⟨hc, steps, rfl⟩ hs
    exact ⟨_, _, h.advance_stop hc hs steps, rfl,
      (still_of_stop hs).toKin.control_eq_none hc, steps, rfl⟩

/-- At the beginning both programs have the same machine. Should the loop stand there, it is behind
the machine after one step. -/
theorem exists_after (hc : m.control = none) (hpc : m.pc = 0)
    (hstart : index = 0 → m.tape.cell = 0) :
    ∃ k steps, m.after long k = some (m.detoured index size steps) := by
  by_cases hindex : index = 0
  · have hskip := h.skip hc (hstart hindex) (hpc.trans hindex.symm)
    refine ⟨1, m.steps + 1, (after_one hskip).trans ?_⟩
    rw [detoured, hpc, across_of_le (Nat.le_of_eq hindex), hindex]
  · have hsame : across index size m.pc = m.pc := across_of_lt (by omega)
    refine ⟨0, m.steps, ?_⟩
    rw [detoured, hsame]
    rfl

theorem runsTo (hc : m.control = none) (hpc : m.pc = 0) (hstart : index = 0 → m.tape.cell = 0)
    (traced : Bool) :
    (∀ ending final, m.RunsTo short traced ending final →
      ∃ steps, m.RunsTo long traced (ending.mapSite (.across index size chars))
        (final.detoured index size steps)) ∧
    (m.Endless long traced ↔ m.Endless short traced) := by
  obtain ⟨k, steps, hk⟩ := h.exists_after hc hpc hstart
  have hrelated : m.control = none ∧
      ∃ steps', m.detoured index size steps = m.detoured index size steps' := ⟨hc, steps, rfl⟩
  constructor
  · intro ending final hrun
    obtain ⟨n, he⟩ := (runsTo_iff h.shortLive).1 hrun
    obtain ⟨l, _, _, hl, rfl, _, steps', rfl⟩ := h.pursues.endsAfter hrelated he
    exact ⟨steps', (runsTo_iff h.longLive).2 ⟨k + l, .of_after hk hl⟩⟩
  · exact (endless_iff_of_after h.longLive hk).trans
      (h.pursues.endless_iff (begin_live h.shortLive m) (begin_live h.longLive _) hrelated traced
        traced)

end Detour

end Job

theorem Tape.cell_reset (t : Tape) : t.reset.cell = 0 := by
  simp [Tape.cell, Tape.reset]

namespace Interpreter

open Machine

/-- A loop that stands right behind another one makes no difference, however deep inside of other
loops the two may stand: with it the text is a program as well, and its evaluation comes to the same
end with the same tape, input and output, or to none. Only the counter, and the place that a failure
blames, is moved if it lies beyond that loop. The same goes for a loop at the beginning of a text
and a fresh interpreter. -/
theorem evaluatesTo_detour {B : String} (hB : Program.Nested B.toList) :
    (∀ (P A Q : String) (p : Program) (t : JumpTable),
      read (P ++ "[" ++ A ++ "]" ++ Q) = .ok (p, t) →
      let index := Program.countSymbols (P ++ "[" ++ A ++ "]").toList
      let size := Program.countSymbols B.toList + 2
      ∃ q u, read (P ++ "[" ++ A ++ "]" ++ "[" ++ B ++ "]" ++ Q) = .ok (q, u) ∧
        ∀ (traced : Bool) (tape : Tape) (input : Input) (output : Output),
          let m : Machine := ⟨tape, 0, 0, input, output, none⟩
          (∀ ending final, m.RunsTo ⟨p, t, .live⟩ traced ending final →
            ∃ steps, m.RunsTo ⟨q, u, .live⟩ traced
              (ending.mapSite (.across index size (B.length + 2)))
              (final.detoured index size steps)) ∧
          (m.Endless ⟨q, u, .live⟩ traced ↔ m.Endless ⟨p, t, .live⟩ traced)) ∧
    ∀ (Q : String) (p : Program) (t : JumpTable), read Q = .ok (p, t) →
      let size := Program.countSymbols B.toList + 2
      ∃ q u, read ("[" ++ B ++ "]" ++ Q) = .ok (q, u) ∧
        ∀ (capacity : Nat) (policy : Policy) (traced : Bool) (input : Input) (output : Output),
          let it := Interpreter.new capacity policy
          (∀ ending it' input' output',
            it.EvaluatesTo .live traced Q input output ending it' input' output' →
            it.EvaluatesTo .live traced ("[" ++ B ++ "]" ++ Q) input output
              (ending.mapSite (.relocated size (B.length + 2)))
              { it' with program := q, jumps := u, pc := size + it'.pc } input' output') ∧
          (it.Endless .live ("[" ++ B ++ "]" ++ Q) input output ↔
            it.Endless .live Q input output) := by
  rw [← Program.countSymbols_loop, ← String.length_toList, ← Program.length_loop]
  constructor
  · intro P A Q p t hp index size
    have hsource : (P ++ "[" ++ A ++ "]" ++ Q).toList = (P ++ "[" ++ A ++ "]").toList ++ Q.toList :=
      String.toList_append ..
    have hsource' : (P ++ "[" ++ A ++ "]" ++ "[" ++ B ++ "]" ++ Q).toList =
        (P ++ "[" ++ A ++ "]").toList ++ (Program.loop B.toList ++ Q.toList) := by
      simp [Program.loop]
    have hfront : Program.spelled (P ++ "[" ++ A ++ "]").toList =
        Program.spelled (P ++ "[" ++ A).toList ++ [.loopClose] := by
      rw [String.toList_append, Program.spelled_append]
      rfl
    have hindex : index = (Program.spelled (P ++ "[" ++ A).toList).length + 1 := by
      have hlength := congrArg List.length hfront
      rwa [Program.length_spelled, List.length_append] at hlength
    have hbehind : ∀ ip, ip + 1 = index →
        (Program.spelled (P ++ "[" ++ A ++ "]").toList)[ip]? = some .loopClose := by
      intro ip hip
      obtain rfl : ip = (Program.spelled (P ++ "[" ++ A).toList).length := by omega
      rw [hfront, List.getElem?_concat_length]
    obtain ⟨q, u, hq⟩ := exists_read_insert hp hsource hsource' hB
    have hdetour := detour_of_read hp hsource hsource' hB hq hbehind
    refine ⟨q, u, hq, fun traced tape input output => ?_⟩
    exact hdetour.runsTo rfl rfl (fun hzero => by omega) traced
  · intro Q p t hp size
    have hsource' : ("[" ++ B ++ "]" ++ Q).toList = [] ++ (Program.loop B.toList ++ Q.toList) := by
      simp [Program.loop]
    obtain ⟨q, u, hq⟩ := exists_read_insert hp (List.nil_append _).symm hsource' hB
    have hdetour := detour_of_read hp (List.nil_append _).symm hsource' hB hq
      fun ip hip => absurd hip (Nat.succ_ne_zero ip)
    refine ⟨q, u, hq, fun capacity policy traced input output => ?_⟩
    intro it
    have hruns := hdetour.runsTo (m := it.reset.machine input output) rfl rfl
      (fun _ => Tape.cell_reset _)
    constructor
    · intro ending it' input' output' heval
      obtain ⟨final, hrun, rfl, rfl, rfl⟩ := (evaluatesTo_of_ok hp).1 heval
      obtain ⟨steps, hlong⟩ := (hruns traced).1 ending final hrun
      exact (evaluatesTo_of_ok hq).2 ⟨_, hlong, rfl, rfl, rfl⟩
    · refine forall_congr' fun traced' => ?_
      rw [endless_of_ok hp, endless_of_ok hq]
      exact (hruns traced').2

/-- On a tape of one cell `+[-]>` overruns it with the instruction 4, which is the character 4. With
a loop of 6 instructions and 7 characters in front of the `>` these are 10 and 11; and the same loop
moves `>` by as much from the beginning of a text. -/
theorem evaluatesTo_detour_overrun :
    let p : Program := ⟨#[⟨.increment, 0⟩, ⟨.loopOpen, 1⟩, ⟨.decrement, 2⟩, ⟨.loopClose, 3⟩,
      ⟨.moveRight, 4⟩]⟩
    let t : JumpTable := ⟨#[none, some 3, none, some 1, none], 1⟩
    let m : Machine := ⟨Tape.new 1 .strict, 0, 0, [], {}, none⟩
    let final : Machine := ⟨Tape.new 1 .strict, 4, 4, [], {}, none⟩
    let it : Interpreter := Interpreter.new 1 .strict
    Program.Nested "é+[.]".toList ∧ read ("+" ++ "[" ++ "-" ++ "]" ++ ">") = .ok (p, t) ∧
      m.RunsTo ⟨p, t, .live⟩ false (.failed (.overrun ⟨4, 4⟩ (.pastLast 0))) final ∧
      (∃ q u steps, read ("+" ++ "[" ++ "-" ++ "]" ++ "[" ++ "é+[.]" ++ "]" ++ ">") = .ok (q, u) ∧
        m.RunsTo ⟨q, u, .live⟩ false (.failed (.overrun ⟨10, 11⟩ (.pastLast 0)))
          { final with pc := 10, steps := steps }) ∧
      ∃ it', it.EvaluatesTo .live false ("[" ++ "é+[.]" ++ "]" ++ ">") [] {}
        (.failed (.overrun ⟨6, 7⟩ (.pastLast 0))) it' [] {} := by
  intro p t m final it
  have hB : Program.Nested "é+[.]".toList :=
    Program.balanced_spelled_iff.1 (Balanced.append (.plain rfl) (.loop (.plain rfl)))
  have hp : read ("+" ++ "[" ++ "-" ++ "]" ++ ">") = .ok (p, t) := rfl
  have hrun : m.RunsTo ⟨p, t, .live⟩ false (.failed (.overrun ⟨4, 4⟩ (.pastLast 0))) final := by
    refine ⟨5, #[], ?_⟩
    simp only [p, t, m, final]
    rfl
  have heval : it.EvaluatesTo .live false ">" [] {} (.failed (.overrun ⟨0, 0⟩ (.pastLast 0)))
      ⟨Tape.new 1 .strict, ⟨#[⟨.moveRight, 0⟩]⟩, ⟨#[none], 0⟩, 0, none⟩ [] {} := by
    have hstop : (it.reset.machine [] {}).RunsTo ⟨⟨#[⟨.moveRight, 0⟩]⟩, ⟨#[none], 0⟩, .live⟩ false
        (.failed (.overrun ⟨0, 0⟩ (.pastLast 0))) ⟨Tape.new 1 .strict, 0, 0, [], {}, none⟩ :=
      ⟨1, #[], rfl⟩
    exact (evaluatesTo_of_ok rfl).2 ⟨_, hstop, rfl, rfl, rfl⟩
  obtain ⟨hbehind, hbefore⟩ := evaluatesTo_detour hB
  obtain ⟨q, u, hq, hruns⟩ := hbehind "+" "-" ">" p t hp
  obtain ⟨steps, hlong⟩ := (hruns false (Tape.new 1 .strict) [] {}).1 _ final hrun
  obtain ⟨_, _, _, hevals⟩ := hbefore ">" _ _ rfl
  have hmoved := (hevals 1 .strict false [] {}).1 _ _ _ _ heval
  exact ⟨hB, hp, hrun, ⟨q, u, steps, hq, hlong⟩, _, hmoved⟩

end Interpreter

end TapeMachine
