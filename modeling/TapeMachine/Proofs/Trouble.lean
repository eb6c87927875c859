import TapeMachine.Proofs.Bounds

/-!
# TapeMachine.Proofs.Trouble

A step that fails leaves nothing behind but its report, and at most one byte.

* `Output.sendByte_eq`   — all that can become of a byte: refused, be it for once or for good, taken,
  or taken but not passed on.
* `Machine.sent`         — what the `.` of a number of steps have written.
* `taken_of_after`, `taken_of_stop` — the output after steps that succeed, and after one that fails.
* `Machine.reliable`     — the machine with an output that never fails. It makes every step that
  the machine makes, `after_reliable`.
* `runsTo_trouble`       — what an evaluation that ends in trouble leaves behind.
-/

namespace TapeMachine

namespace Output

/-- Whether another byte would be taken. -/
def accepts (o : Output) : Bool := o.brink.all (o.taken.size < ·.place)

/-- The text with which a byte is refused. -/
def complaint (o : Output) : String := (o.brink.map (·.text)).getD o.refusal

/-- Whether the next flush fails. -/
def flushFails (o : Output) : Bool := o.failingFlush == some (o.flushes + 1)

/-- An output that never fails. -/
def reliable (o : Output) : Output :=
  { o with limit := none, failingFlush := none, lapses := [], lapsed := 0 }

/-- The output after a byte that is taken, whether it can be passed on or not. -/
def push (byte : UInt8) (o : Output) : Output :=
  { o with taken := o.taken.push byte, flushes := o.flushes + 1 }

@[simp] theorem toList_taken_push (byte : UInt8) (o : Output) :
    (o.push byte).taken.toList = o.taken.toList ++ [byte] := by
  simp [push]

@[simp] theorem taken_lapse (o : Output) : o.lapse.taken = o.taken := by
  unfold lapse
  split <;> rfl

theorem write_eq_refused {o : Output} (h : o.accepts = false) (byte : UInt8) :
    o.write [byte] = (o.lapse, some o.complaint) := by
  cases hbrink : o.brink with
  | none =>
    rw [accepts, hbrink] at h
    cases h
  | some brink =>
    have hle : brink.place ≤ o.taken.size := by simpa [accepts, hbrink] using h
    have hroom : brink.place - o.taken.size = 0 := by omega
    simp [write, append, complaint, hbrink, hroom]

theorem write_eq_taken {o : Output} (h : o.accepts = true) (byte : UInt8) :
    o.write [byte] = ({ o with taken := o.taken.push byte }, none) := by
  cases hbrink : o.brink with
  | none => simp [write, append, hbrink]
  | some brink =>
    have hlt : o.taken.size < brink.place := by simpa [accepts, hbrink] using h
    have hroom : ¬brink.place - o.taken.size < 1 := by omega
    simp [write, append, hbrink, hroom]

/-- All that can become of a byte. -/
theorem sendByte_eq (byte : UInt8) (o : Output) :
    o.sendByte byte =
      if o.accepts then (o.push byte, if o.flushFails then some "flush failed" else none)
      else (o.lapse, some o.complaint) := by
  cases h : o.accepts with
  | false => simp [sendByte, write_eq_refused h]
  | true => simp [sendByte, write_eq_taken h, flush, push, flushFails]

/-- A byte that is refused for once is taken when it is offered again. -/
example :
    let o : Output := { lapses := [⟨0, "busy"⟩] }
    (o.sendByte 7).2 = some "busy" ∧ (o.sendByte 7).1.sendByte 7 = (o.lapse.push 7, none) :=
  ⟨rfl, rfl⟩

theorem sendByte_reliable (byte : UInt8) (o : Output) :
    o.reliable.sendByte byte = ((o.push byte).reliable, none) := by
  rw [sendByte_eq]
  rfl

theorem sendByte_eq_none {byte : UInt8} {o o' : Output} (h : o.sendByte byte = (o', none)) :
    o' = o.push byte := by
  rw [sendByte_eq] at h
  split at h
  · exact (congrArg Prod.fst h).symm
  · cases h

/-- A byte that is not passed on was taken if it is the flush that failed. -/
theorem sendByte_eq_some {byte : UInt8} {o o' : Output} {text : String}
    (h : o.sendByte byte = (o', some text)) :
    o'.taken.toList =
      o.taken.toList ++ if o.accepts && o.flushFails then [byte] else [] := by
  rw [sendByte_eq] at h
  cases ha : o.accepts with
  | false =>
    simp only [ha] at h
    cases h
    simp
  | true =>
    cases hf : o.flushFails with
    | false => simp [ha, hf] at h
    | true =>
      simp only [ha, hf, if_true] at h
      cases h
      simp

end Output

namespace Machine

/-- The byte that the next step writes, if it is a `.`. -/
def due (job : Job) (m : Machine) : List UInt8 :=
  if job.program.instruction? m.pc = some .write then [m.tape.cell] else []

/-- What the `.` of the first `n` steps write, in order. -/
def sent (job : Job) : Nat → Machine → List UInt8
  | 0, _ => []
  | n + 1, m =>
    match m.advance job with
    | .next m' => m.due job ++ sent job n m'
    | .stop _ _ => []

/-- The byte that a step writes although it fails: that of a `.` whose byte is taken, but not
passed on. -/
def stuck (job : Job) (m : Machine) : List UInt8 :=
  if m.output.accepts && m.output.flushFails then m.due job else []

/-- The machine with an output that never fails. -/
def reliable (m : Machine) : Machine := { m with output := m.output.reliable }

variable {job : Job} {i : Instruction} {m m' last : Machine} {ending : Ending} {n : Nat}

/-! ## Single instructions -/

theorem perform_output (h : i ≠ .write) (m : Machine) : (m.perform i).1.output = m.output := by
  obtain ⟨tape, pc, steps, input, output, control⟩ := m
  cases i with
  | write => exact absurd rfl h
  | read =>
    simp only [perform, receive]
    cases input.receive with
    | mk answer unread canceled => cases answer <;> rfl
  | _ =>
    simp only [perform, adjust_eq_moved]
    cases Instruction.onTape _ tape <;> rfl

theorem perform_write (m : Machine) :
    m.perform .write =
      ({ m with
          output := (m.output.sendByte m.tape.cell).1
          control := m.control.map (·.cancelIf (m.output.sendByte m.tape.cell).1.cancels) },
        (m.output.sendByte m.tape.cell).2.map .io) :=
  rfl

theorem output_of_write (h : m.perform .write = (m', none)) :
    m'.output = m.output.push m.tape.cell := by
  rw [perform_write] at h
  cases hs : m.output.sendByte m.tape.cell with
  | mk output refused =>
    rw [hs] at h
    cases refused with
    | some text => cases h
    | none =>
      cases h
      exact Output.sendByte_eq_none hs

/-- A `.` that fails has its byte taken if it is the flush that failed. -/
theorem taken_of_write_trouble {trouble : Trouble} (h : m.perform .write = (m', some trouble)) :
    m'.output.taken.toList =
      m.output.taken.toList ++
        if m.output.accepts && m.output.flushFails then [m.tape.cell] else [] := by
  rw [perform_write] at h
  cases hs : m.output.sendByte m.tape.cell with
  | mk output refused =>
    rw [hs] at h
    cases refused with
    | none => cases h
    | some text =>
      cases h
      exact Output.sendByte_eq_some hs

theorem perform_write_reliable (m : Machine) :
    m.reliable.perform .write =
      ({ m with
          output := (m.output.push m.tape.cell).reliable
          control := m.control.map (·.cancelIf (m.output.push m.tape.cell).cancels) }, none) := by
  rw [perform_write]
  simp only [reliable, Output.sendByte_reliable]
  rfl

theorem perform_reliable (h : m.perform i = (m', none)) :
    m.reliable.perform i = (m'.reliable, none) := by
  cases i with
  | write =>
    have houtput := output_of_write h
    rw [perform_write] at h
    obtain ⟨rfl, _⟩ := Prod.mk.inj h
    rw [perform_write_reliable, ← houtput]
    rfl
  | read =>
    obtain ⟨tape, pc, steps, input, output, control⟩ := m
    simp only [perform, receive, reliable] at h ⊢
    split at h
    · cases h
      simp
    · cases h
  | _ =>
    simp only [perform, adjust_eq_moved, reliable] at h ⊢
    generalize Instruction.onTape _ _ = r at h ⊢
    cases r with
    | ok t =>
      cases h
      rfl
    | error cause => cases h

/-! ## Steps -/

theorem due_of_pending (hi : m.pending job = .ok i) :
    m.due job = if i = .write then [m.tape.cell] else [] := by
  simp [due, (pending_eq_ok_iff.1 hi).1]

theorem taken_of_next (hlive : job.mode = .live) (h : m.advance job = .next m') :
    m'.output.taken.toList = m.output.taken.toList ++ m.due job := by
  obtain ⟨i, hp, hstep⟩ := advance_next h
  obtain ⟨flow, m₁, _, hperform, rfl⟩ := step_live_next hlive hstep
  rw [due_of_pending hp]
  show m₁.output.taken.toList = _
  by_cases hw : i = .write
  · subst hw
    rw [output_of_write hperform, Output.toList_taken_push, if_pos rfl]
  · have houtput := perform_output hw m
    rw [hperform] at houtput
    rw [houtput, if_neg hw, List.append_nil]

theorem taken_of_trouble {trouble : Trouble} (hi : m.pending job = .ok i)
    (h : m.perform i = (m', some trouble)) :
    m'.output.taken.toList = m.output.taken.toList ++ m.stuck job := by
  rw [stuck, due_of_pending hi]
  by_cases hw : i = .write
  · subst hw
    rw [taken_of_write_trouble h, if_pos rfl]
  · have houtput := perform_output hw m
    rw [h] at houtput
    rw [houtput, if_neg hw]
    simp

theorem taken_of_stop (hlive : job.mode = .live) (h : m.advance job = .stop ending m') :
    m.output.taken.toList <+: m'.output.taken.toList := by
  rcases advance_stop h with ⟨_, rfl⟩ | ⟨i, hi, hstep⟩
  · exact List.prefix_refl _
  · rcases (step_live_stop hlive hstep) with ⟨_, hflow⟩ | ⟨trouble, _, hperform⟩
    · rw [step, hflow] at hstep
      cases hstep
      exact List.prefix_refl _
    · rw [taken_of_trouble hi hperform]
      exact List.prefix_append _ _

theorem advance_reliable (hlive : job.mode = .live) (h : m.advance job = .next m') :
    m.reliable.advance job = .next m'.reliable := by
  obtain ⟨i, hi, hstep⟩ := advance_next h
  obtain ⟨flow, m₁, hflow, hperform, rfl⟩ := step_live_next hlive hstep
  have hp : m.reliable.pending job = .ok i := hi
  have hflow' : job.flow? m.reliable.pc m.reliable.tape.cell i = some flow := hflow
  rw [advance_of_pending hp]
  simp only [step, hflow', hlive, perform_reliable hperform]
  rfl

/-- Where a byte is taken that cannot be passed on, an output that never fails takes it as well. -/
theorem exists_reliable_of_stuck (hlive : job.mode = .live) (hi : m.pending job = .ok .write) :
    ∃ m₁, m.reliable.advance job = .next m₁ ∧
      m₁.output.taken.toList = m.output.taken.toList ++ [m.tape.cell] := by
  have hp : m.reliable.pending job = .ok .write := hi
  have hadvance := advance_of_pending hp
  simp only [step, hlive, perform_write_reliable] at hadvance
  exact ⟨_, hadvance, Output.toList_taken_push _ _⟩

/-! ## Many steps -/

theorem taken_of_after (hlive : job.mode = .live) (h : m.after job n = some m') :
    m'.output.taken.toList = m.output.taken.toList ++ m.sent job n := by
  induction n generalizing m with
  | zero =>
    cases h
    simp [sent]
  | succ n ih =>
    obtain ⟨m₁, hs, hrest⟩ := exists_of_after_succ h
    rw [ih hrest, taken_of_next hlive hs, sent, hs, List.append_assoc]

theorem EndsAfter.taken (hlive : job.mode = .live) (he : EndsAfter job n m ending m') :
    m.output.taken.toList <+: m'.output.taken.toList := by
  obtain ⟨last, hlast, hstop⟩ := he
  have hafter := taken_of_after hlive hlast
  have hprefix := taken_of_stop hlive hstop
  rw [hafter] at hprefix
  exact (List.prefix_append _ _).trans hprefix

theorem after_reliable (hlive : job.mode = .live) (h : m.after job n = some m') :
    m.reliable.after job n = some m'.reliable :=
  after_map (advance_reliable hlive) h

theorem exists_reliable_after (hlive : job.mode = .live) (h : m.after job n = some last)
    (hi : last.pending job = .ok i) :
    ∃ k later, m.reliable.after job k = some later ∧
      last.output.taken.toList ++ last.stuck job <+: later.output.taken.toList := by
  have hafter := after_reliable hlive h
  by_cases hw : i = .write
  · subst hw
    obtain ⟨later, hadvance, htaken⟩ := exists_reliable_of_stuck hlive hi
    refine ⟨n + 1, later, (after_add hafter 1).trans (after_one hadvance), ?_⟩
    rw [htaken, stuck, due_of_pending hi, if_pos rfl]
    split
    · exact List.prefix_refl _
    · rw [List.append_nil]
      exact List.prefix_append _ _
  · refine ⟨n, last.reliable, hafter, ?_⟩
    rw [stuck, due_of_pending hi, if_neg hw, ite_self, List.append_nil]
    exact List.prefix_refl _

/-! ## The end of the evaluation -/

/-- An evaluation that ends in trouble has made some steps, and the step that fails has changed
neither the tape nor the counter. The failure names that place and the character of the text there.
What has been written is what the `.` up to there have written and, if the step that fails is a `.`
whose byte is taken but cannot be passed on, this byte; an output that never fails would take all of
that as well, however the evaluation would go on then. -/
theorem runsTo_trouble {p : Program} {jumps : JumpTable} {traced : Bool} {m m' : Machine}
    {cause : Failure} {site : Site}
    (hrun : m.RunsTo ⟨p, jumps, .live⟩ traced (.failed cause) m')
    (hsite : cause.site? = some site) :
    ∃ k last, m.after ⟨p, jumps, .live⟩ k = some last ∧
      m'.tape = last.tape ∧ m'.pc = last.pc ∧ m'.steps = m.steps + k ∧
      site.ip = m'.pc ∧ p.offset? m'.pc = some site.offset ∧
      m'.output.taken.toList = m.output.taken.toList ++ m.sent ⟨p, jumps, .live⟩ k ++
        last.stuck ⟨p, jumps, .live⟩ ∧
      (∃ n later, m.reliable.after ⟨p, jumps, .live⟩ n = some later ∧
        m'.output.taken.toList <+: later.output.taken.toList) ∧
      ∀ ending final, m.reliable.RunsTo ⟨p, jumps, .live⟩ traced ending final →
        m'.output.taken.toList <+: final.output.taken.toList := by
  obtain ⟨k, he⟩ := (runsTo_iff rfl).1 hrun
  have hsteps := he.steps
  obtain ⟨last, hlast, hstop⟩ := he
  have hstill := still_of_stop hstop
  rcases advance_stop hstop with ⟨hp, rfl⟩ | ⟨i, hi, hstep⟩
  · -- The end of the program, the flag and the limit blame no instruction.
    rcases pending_eq_error hp with ⟨hending, _⟩ | ⟨_, ⟨hending, _⟩ | ⟨limit, hending, _⟩⟩ <;>
      cases hending <;> cases hsite
  · rcases step_live_stop rfl hstep with ⟨hending, _⟩ | ⟨trouble, hending, hperform⟩
    · cases hending
    · cases hending
      rw [Trouble.site?_failure] at hsite
      cases hsite
      have hi' := (pending_eq_ok_iff.1 hi).1
      have htaken := taken_of_trouble hi hperform
      obtain ⟨n, later, hlater, hprefix⟩ := exists_reliable_after rfl hlast hi
      rw [← htaken] at hprefix
      refine ⟨k, last, hlast, tape_of_trouble hperform, hstill.pc, hsteps, hstill.pc.symm, ?_, ?_,
        ⟨n, later, hlater, hprefix⟩, ?_⟩
      · rw [hstill.pc]
        exact Program.offset?_of_instruction? hi'
      · rw [htaken, taken_of_after rfl hlast]
      · intro ending final hreliable
        obtain ⟨l, hl⟩ := (runsTo_iff rfl).1 hreliable
        obtain ⟨_, _, hrest⟩ := hl.drop hlater
        exact hprefix.trans (hrest.taken rfl)

/-- In `+.+.` the flush behind the second `.` fails, and its byte has been taken all the same. -/
theorem runsTo_trouble_flush :
    let p : Program := ⟨#[⟨.increment, 0⟩, ⟨.write, 1⟩, ⟨.increment, 2⟩, ⟨.write, 3⟩]⟩
    let job : Job := ⟨p, ⟨#[none, none, none, none], 0⟩, .live⟩
    let m : Machine := ⟨Tape.new 1 .wrap, 0, 0, [], { failingFlush := some 2 }, none⟩
    let m' : Machine := ⟨(Tape.new 1 .wrap).store 2, 3, 3, [],
      { failingFlush := some 2, taken := #[1, 2], flushes := 2 }, none⟩
    let cause : Failure := .io ⟨3, 3⟩ "flush failed"
    m.RunsTo job false (.failed cause) m' ∧ cause.site? = some ⟨3, 3⟩ ∧
      ∃ k last, m.after job k = some last ∧ m'.steps = m.steps + k ∧
        m'.output.taken.toList =
          m.output.taken.toList ++ m.sent job k ++ last.stuck job := by
  intro p job m m' cause
  have hrun : m.RunsTo job false (.failed cause) m' := ⟨5, #[], by cbv⟩
  obtain ⟨k, last, hlast, _, _, hsteps, _, _, htaken, _⟩ := runsTo_trouble hrun rfl
  exact ⟨hrun, rfl, k, last, hlast, hsteps, htaken⟩

end Machine

end TapeMachine
