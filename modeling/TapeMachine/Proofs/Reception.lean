import TapeMachine.Proofs.Recovery

/-!
# TapeMachine.Proofs.Reception

Reads lose nothing, repeat nothing and read nothing ahead.

* `Input.answering`   — the events that answer reads, which is all but interruptions and the
  moments at which somebody cancels.
* `Input.attempt`, `Input.retry` — a read as the loop that it is: one attempt after the other, until
  one is not interrupted.
* `Input.Takes`       — the part of the input that a number of reads take.
* `takes_unreadAfter` — every read takes the input up to the event that answers it.
* `Machine.views`     — what can be seen before the attempts at a step, one after the other.
* `Machine.reads`     — the number of `,` among some attempts at a step.
* `Machine.Answered`  — what a `,` comes to, given the answer of its read.
* `receives_inOrder`  — the reads of a machine are those reads, one after the other.
-/

namespace TapeMachine

namespace Input

/-- Whether the event answers a read. -/
def Event.answers : Event → Bool
  | interrupted => false
  | cancel => false
  | _ => true

/-- What a read comes to that the event answers. -/
def Event.says : Event → Except String UInt8
  | byte value => .ok value
  | failed text => .error text
  | _ => .ok 0

/-- The events that answer reads. -/
def answering (input : Input) : Input := input.filter Event.answers

/-- One attempt at a read, with what it leaves. It has no answer if it is interrupted. -/
def attempt : Input → Option (Except String UInt8) × Input
  | [] => (some (.ok 0), [])
  | .interrupted :: rest => (none, rest)
  | .cancel :: rest => attempt rest
  | event :: rest => (some event.says, rest)

/-- A read by at most so many attempts; `none` means that all of them were interrupted. -/
def retry : Nat → Input → Option (Except String UInt8 × Input)
  | 0, _ => none
  | fuel + 1, input =>
    match input.attempt with
    | (none, rest) => retry fuel rest
    | (some answer, rest) => some (answer, rest)

/-- What is left after a number of reads. -/
def unreadAfter (input : Input) : Nat → Input
  | 0 => input
  | k + 1 => (input.unreadAfter k).receive.unread

/-- The answer of the read that comes after `k` others. -/
def answer (input : Input) (k : Nat) : Except String UInt8 := (input.unreadAfter k).receive.answer

/-- The part of the input that `k` reads take. It holds the first `k` events that answer, and it
ends with the last of them; but if there are fewer, nothing is left. -/
structure Takes (input : Input) (k : Nat) (taken unread : Input) : Prop where
  parts : input = taken ++ unread
  answering : taken.answering = input.answering.take k
  last : k ≤ input.answering.length → ∀ event ∈ taken.getLast?, event.answers = true
  entirely : input.answering.length < k → unread = []

variable {input unread taken rest : Input} {event : Event} {k fuel : Nat}

/-! ## Single reads -/

theorem answering_cons (h : event.answers = true) (rest : Input) :
    answering (event :: rest) = event :: answering rest :=
  List.filter_cons_of_pos h

theorem answering_cons_of_not (h : event.answers = false) (rest : Input) :
    answering (event :: rest) = answering rest :=
  List.filter_cons_of_neg (by simp [h])

theorem answering_append (front rest : Input) :
    answering (front ++ rest) = answering front ++ answering rest :=
  List.filter_append ..

/-- A read says what the next event says that answers. -/
theorem receive_answer (input : Input) :
    input.receive.answer = (input.answering.head?.map Event.says).getD (.ok 0) := by
  induction input with
  | nil => rfl
  | cons event rest ih =>
    cases event with
    | interrupted => exact ih
    | cancel => exact ih
    | _ => rfl

/-- The loop comes to the read if there are more attempts than interruptions. By induction on the
input, of which every attempt takes one interruption or none. -/
theorem retry_eq (h : input.count .interrupted < fuel) :
    input.retry fuel = some (input.receive.answer, input.receive.unread) := by
  induction input generalizing fuel with
  | nil =>
    obtain ⟨fuel, rfl⟩ := Nat.exists_eq_add_one_of_ne_zero (Nat.ne_zero_of_lt h)
    rfl
  | cons event rest ih =>
    obtain ⟨fuel, rfl⟩ := Nat.exists_eq_add_one_of_ne_zero (Nat.ne_zero_of_lt h)
    cases event with
    | interrupted =>
      rw [List.count_cons_self] at h
      exact ih (Nat.lt_of_succ_lt_succ h)
    | cancel =>
      rw [List.count_cons_of_ne (by decide)] at h
      exact ih h
    | _ => rfl

theorem Takes.nothing (input : Input) : input.Takes 0 [] input where
  parts := rfl
  answering := rfl
  last := nofun
  entirely h := absurd h (Nat.not_lt_zero _)

theorem Takes.cons (h : rest.Takes (k + 1) taken unread) (hevent : event.answers = false) :
    Takes (event :: rest) (k + 1) (event :: taken) unread where
  parts := by rw [h.parts, List.cons_append]
  answering := by rw [answering_cons_of_not hevent, answering_cons_of_not hevent, h.answering]
  last := by
    rw [answering_cons_of_not hevent]
    intro hk
    cases taken with
    | nil =>
      have hlength := congrArg List.length h.answering
      rw [List.length_take, Nat.min_eq_left hk] at hlength
      cases hlength
    | cons first others =>
      rw [List.getLast?_cons_cons]
      exact h.last hk
  entirely := by
    rw [answering_cons_of_not hevent]
    exact h.entirely

theorem takes_one (hevent : event.answers = true) (rest : Input) :
    Takes (event :: rest) 1 [event] rest where
  parts := rfl
  answering := by rw [answering_cons hevent, answering_cons hevent]; rfl
  last _ _ hmem := by cases hmem; exact hevent
  entirely := by
    rw [answering_cons hevent]
    exact fun h => absurd h (by simp)

theorem takes_receive (input : Input) : ∃ taken, input.Takes 1 taken input.receive.unread := by
  induction input with
  | nil => exact ⟨[], rfl, rfl, nofun, fun _ => rfl⟩
  | cons event rest ih =>
    cases event with
    | interrupted =>
      obtain ⟨taken, htaken⟩ := ih
      exact ⟨_, htaken.cons rfl⟩
    | cancel =>
      obtain ⟨taken, htaken⟩ := ih
      exact ⟨_, htaken.cons rfl⟩
    | _ => exact ⟨_, takes_one rfl rest⟩

/-! ## Successive reads -/

/-- What is left holds the events that answer the reads to come. -/
theorem Takes.unread_answering (h : input.Takes k taken unread) :
    unread.answering = input.answering.drop k := by
  have hparts : taken.answering ++ unread.answering = input.answering := by
    rw [← answering_append, ← h.parts]
  rw [h.answering] at hparts
  exact List.append_cancel_left (hparts.trans (List.take_append_drop k _).symm)

theorem Takes.succ {more : Input} (h : input.Takes k taken rest) (h' : rest.Takes 1 more unread) :
    input.Takes (k + 1) (taken ++ more) unread := by
  have hrest := h.unread_answering
  have hlength : rest.answering.length = input.answering.length - k := by
    rw [hrest, List.length_drop]
  refine ⟨?_, ?_, fun hk => ?_, fun hk => h'.entirely (by omega)⟩
  · rw [h.parts, h'.parts, List.append_assoc]
  · rw [answering_append, h.answering, h'.answering, hrest, ← List.take_add]
  · -- One more event answers, so that the second part is not empty.
    have hmore : more ≠ [] := by
      rintro rfl
      have hnone := congrArg List.length h'.answering
      rw [List.length_take, hlength] at hnone
      have hzero : (Input.answering []).length = 0 := rfl
      omega
    rw [List.getLast?_append, Option.or_of_isSome (by simp [hmore])]
    exact h'.last (by omega)

theorem takes_unreadAfter (input : Input) (k : Nat) :
    ∃ taken, input.Takes k taken (input.unreadAfter k) := by
  induction k with
  | zero => exact ⟨[], .nothing input⟩
  | succ k ih =>
    obtain ⟨taken, htaken⟩ := ih
    obtain ⟨more, hmore⟩ := takes_receive (input.unreadAfter k)
    exact ⟨_, htaken.succ hmore⟩

theorem answer_eq (input : Input) (k : Nat) :
    input.answer k = (input.answering[k]?.map Event.says).getD (.ok 0) := by
  obtain ⟨taken, htaken⟩ := takes_unreadAfter input k
  rw [answer, receive_answer, htaken.unread_answering, List.head?_drop]

theorem unreadAfter_add (input : Input) (j k : Nat) :
    input.unreadAfter (j + k) = (input.unreadAfter j).unreadAfter k := by
  induction k with
  | zero => rfl
  | succ k ih => rw [← Nat.add_assoc, unreadAfter, unreadAfter, ih]

end Input

namespace Machine

/-- What can be seen before the next attempt, if there is one to be made. -/
def viewDue (job : Job) (m : Machine) : List View :=
  match m.pending job with
  | .error _ => []
  | .ok i => [m.view i]

/-- What can be seen before the first `n` attempts, or before all of them if there are fewer. -/
def views (job : Job) : Nat → Machine → List View
  | 0, _ => []
  | n + 1, m =>
    m.viewDue job ++
      match m.advance job with
      | .next m' => views job n m'
      | .stop _ _ => []

/-- The number of `,` among the first `n` attempts at a step. -/
def reads (job : Job) (n : Nat) (m : Machine) : Nat :=
  (m.views job n).countP fun view => view.instruction = .read

/-- What a `,` comes to by the answer of its read, which has left `unread`. -/
inductive Answered (job : Job) (m : Machine) (unread : Input) :
    Except String UInt8 → Step → Prop where
  | byte {m' : Machine} {value : UInt8} (htape : m'.tape = m.tape.store value)
      (hinput : m'.input = unread) : Answered job m unread (.ok value) (.next m')
  | failed {m' : Machine} {text : String} (htape : m'.tape = m.tape) (hinput : m'.input = unread) :
      Answered job m unread (.error text) (.stop (.failed (.io (job.site m.pc) text)) m')

variable {job : Job} {m m' before last : Machine} {i : Instruction} {ending : Ending} {n : Nat}

/-! ## Counting reads -/

theorem views_of_next (h : m.advance job = .next m') :
    m.views job (n + 1) = m.viewDue job ++ m'.views job n := by
  rw [views, h]

theorem views_one (job : Job) (m : Machine) : m.views job 1 = m.viewDue job := by
  rw [views]
  cases m.advance job <;> exact List.append_nil _

theorem viewDue_of_pending (h : m.pending job = .ok i) : m.viewDue job = [m.view i] := by
  rw [viewDue, h]

theorem views_add (h : m.after job n = some m') (k : Nat) :
    m.views job (n + k) = m.views job n ++ m'.views job k := by
  induction n generalizing m with
  | zero =>
    cases h
    rw [Nat.zero_add]
    rfl
  | succ n ih =>
    obtain ⟨m₁, hs, hrest⟩ := exists_of_after_succ h
    rw [Nat.succ_add, views_of_next hs, views_of_next hs, ih hrest, List.append_assoc]

theorem reads_add (h : m.after job n = some m') (k : Nat) :
    m.reads job (n + k) = m.reads job n + m'.reads job k := by
  rw [reads, reads, reads, views_add h, List.countP_append]

theorem reads_of_next (hs : m.advance job = .next m') (n : Nat) :
    m.reads job (n + 1) = m.reads job 1 + m'.reads job n := by
  rw [Nat.add_comm]
  exact reads_add (after_one hs) n

theorem reads_one (hi : m.pending job = .ok i) :
    m.reads job 1 = if i = .read then 1 else 0 := by
  rw [reads, views_one, viewDue_of_pending hi]
  cases i <;> rfl

theorem reads_one_of_other (h : m.pending job ≠ .ok .read) : m.reads job 1 = 0 := by
  cases hp : m.pending job with
  | error ending =>
    rw [reads, views_one, viewDue, hp]
    rfl
  | ok i =>
    rw [reads_one hp, if_neg]
    rintro rfl
    exact h hp

/-! ## Steps -/

theorem perform_unreadAfter (hi : m.pending job = .ok i) :
    (m.perform i).1.input = m.input.unreadAfter (m.reads job 1) := by
  rw [perform_input, reads_one hi]
  split <;> rfl

section

variable (hlive : job.mode = .live)

include hlive

theorem input_of_next (hs : m.advance job = .next m') :
    m'.input = m.input.unreadAfter (m.reads job 1) := by
  obtain ⟨i, hi, hstep⟩ := advance_next hs
  obtain ⟨flow, m₁, _, hperform, rfl⟩ := step_live_next hlive hstep
  have hinput := perform_unreadAfter hi
  rwa [hperform] at hinput

theorem advance_read (hi : m.pending job = .ok .read) :
    m.advance job = conclude job .onward m.receive := by
  rw [advance_of_pending hi]
  simp only [step, Job.flow?, hlive, perform]

theorem answered_of_read (hi : m.pending job = .ok .read) :
    Answered job m (m.input.unreadAfter 1) (m.input.answer 0) (m.advance job) := by
  rw [advance_read hlive hi]
  obtain ⟨tape, pc, steps, input, output, control⟩ := m
  have hanswer : input.answer 0 = input.receive.answer := rfl
  have hunread : input.unreadAfter 1 = input.receive.unread := rfl
  simp only [receive, hanswer, hunread]
  cases input.receive.answer with
  | ok value => exact .byte rfl rfl
  | error text => exact .failed rfl rfl

/-- A step that fails has read as well, if it was a `,`. -/
theorem input_of_stop (hs : m.advance job = .stop ending m') :
    m'.input = m.input.unreadAfter (m.reads job 1) := by
  rcases advance_stop hs with ⟨hp, rfl⟩ | ⟨i, hi, hstep⟩
  · rw [reads_one_of_other (by rw [hp]; nofun)]
    rfl
  · cases hflow : job.flow? m.pc m.tape.cell i with
    | none =>
      have hother : i ≠ .read := by
        rintro rfl
        cases hflow
      rw [step, hflow] at hstep
      cases hstep
      rw [reads_one hi, if_neg hother]
      rfl
    | some flow =>
      rcases step_live_stop hlive hstep with ⟨_, hnone⟩ | ⟨trouble, _, hperform⟩
      · cases hflow.symm.trans hnone
      · have hinput := perform_unreadAfter hi
        rwa [hperform] at hinput

/-! ## Evaluations -/

theorem input_of_after (h : m.after job n = some before) :
    before.input = m.input.unreadAfter (m.reads job n) := by
  -- By induction on the steps: the reads go on where the last of them ended.
  induction n generalizing m with
  | zero =>
    cases h
    rfl
  | succ n ih =>
    obtain ⟨m₁, hs, hrest⟩ := exists_of_after_succ h
    rw [ih hrest, input_of_next hlive hs, ← Input.unreadAfter_add, ← reads_of_next hs]

end

/-- Every read ends after at most one attempt more than there are interruptions left. One after the
other, reads say what the events say that answer, and 0 when these are used up; together they
take the input up to the last event that they have needed, or all of it. In an evaluation that
writes no table, the `,` that comes after `k` others is the read that comes after `k` others: it
stores the byte or fails. What is left at any moment, and at the end, is what the reads made until
then have left, and nothing but a `,` counts as one of them. -/
theorem receives_inOrder :
    (∀ (input : Input) (k : Nat),
      (∀ fuel, (input.unreadAfter k).count .interrupted < fuel →
        (input.unreadAfter k).retry fuel = some (input.answer k, input.unreadAfter (k + 1))) ∧
      input.answer k = (input.answering[k]?.map Input.Event.says).getD (.ok 0) ∧
      ∃ taken, input.Takes k taken (input.unreadAfter k)) ∧
    ∀ (job : Job) (m : Machine), job.mode = .live →
      (∀ n before, m.after job n = some before →
        before.input = m.input.unreadAfter (m.reads job n) ∧
        (before.pending job = .ok .read →
          m.reads job (n + 1) = m.reads job n + 1 ∧
          Answered job before (m.input.unreadAfter (m.reads job n + 1))
            (m.input.answer (m.reads job n)) (before.advance job)) ∧
        (before.pending job ≠ .ok .read → m.reads job (n + 1) = m.reads job n)) ∧
      ∀ n ending last, EndsAfter job n m ending last →
        last.input = m.input.unreadAfter (m.reads job (n + 1)) := by
  refine ⟨fun input k => ⟨fun fuel => Input.retry_eq, Input.answer_eq input k,
    Input.takes_unreadAfter input k⟩, fun job m hlive => ⟨fun n before h => ?_, ?_⟩⟩
  · have hinput := input_of_after hlive h
    refine ⟨hinput, fun hi => ?_, fun hother => ?_⟩
    · have hanswered := answered_of_read hlive hi
      rw [hinput, ← Input.unreadAfter_add] at hanswered
      refine ⟨?_, hanswered⟩
      rw [reads_add h, reads_one hi, if_pos rfl]
    · rw [reads_add h, reads_one_of_other hother]
      rfl
  · rintro n ending last ⟨before, h, hstop⟩
    rw [input_of_stop hlive hstop, input_of_after hlive h, ← Input.unreadAfter_add, ← reads_add h]

/-- The third read of `,,,` is interrupted once, and leaves the interruption behind its byte. -/
theorem receives_inOrder_interrupted :
    let input : Input :=
      [.interrupted, .byte 7, .finished, .interrupted, .cancel, .byte 9, .interrupted]
    let program : Program := ⟨#[⟨.read, 0⟩, ⟨.read, 1⟩, ⟨.read, 2⟩]⟩
    let job : Job := ⟨program, ⟨#[none, none, none], 0⟩, .live⟩
    let m : Machine := ⟨Tape.new 1 .strict, 0, 0, input, {}, none⟩
    JumpTable.ofProgram program = .ok job.jumps ∧ job.mode = .live ∧
      (input.unreadAfter 2).count .interrupted < 3 ∧
      (input.unreadAfter 2).retry 3 = some (.ok 9, [.interrupted]) ∧
      ∃ before after last, m.after job 2 = some before ∧ before.pending job = .ok .read ∧
        before.input = [.interrupted, .cancel, .byte 9, .interrupted] ∧
        before.advance job = .next after ∧ after.tape = before.tape.store 9 ∧
        EndsAfter job 3 m .finished last ∧ last.input = [.interrupted] := by
  intro input program job m
  have hfuel : (input.unreadAfter 2).count .interrupted < 3 := by decide
  obtain ⟨hinput, hmachine⟩ := receives_inOrder
  obtain ⟨hsteps, hend⟩ := hmachine job m rfl
  let before : Machine :=
    ⟨Tape.new 1 .strict, 2, 2, [.interrupted, .cancel, .byte 9, .interrupted], {}, none⟩
  let last : Machine := ⟨(Tape.new 1 .strict).store 9, 3, 3, [.interrupted], {}, none⟩
  have hbefore : m.after job 2 = some before := rfl
  have hlast : EndsAfter job 3 m .finished last := ⟨last, rfl, rfl⟩
  have hpending : before.pending job = .ok .read := rfl
  obtain ⟨hleft, hread, _⟩ := hsteps 2 before hbefore
  obtain ⟨_, hanswered⟩ := hread hpending
  have htwo : m.reads job 2 = 2 := rfl
  have hsays : m.input.answer 2 = .ok 9 := (hinput input 2).2.1
  rw [htwo, hsays] at hanswered
  generalize hs : before.advance job = step at hanswered
  cases hanswered with
  | byte htape _ =>
    exact ⟨rfl, rfl, hfuel, (hinput input 2).1 3 hfuel, before, _, last, hbefore, hpending, hleft,
      hs, htape, hlast, hend 3 .finished last hlast⟩

end Machine

end TapeMachine
