import TapeMachine.Proofs.Blame
import TapeMachine.Proofs.Rows
import TapeMachine.Proofs.Undisturbed

/-!
# TapeMachine.Proofs.Recovery

A read that fails can be tried again without loss.

* `Input.mended`      — the input without the failures that reads would meet.
* `Machine.Steady`    — nobody cancels and every write succeeds; both stay so.
* `Machine.Retried`   — what a machine has become after calls that all reported a transfer that
  failed.
* `advance_mended_next`, `advance_mended_stop` — every step of the machine is one on the mended
  input, unless it is a read that fails.
* `advance_mended_of_io` — what is left by a read that fails takes the next step that the machine
  would have taken on the mended input.
* `runsTo_mended_iff` — so the calls come to what one call comes to on the mended input.
-/

namespace TapeMachine

namespace Input

def Event.isFailure : Event → Bool
  | failed _ => true
  | _ => false

/-- The number of failures that reads would meet. -/
def failures (input : Input) : Nat := input.countP Event.isFailure

/-- The input without those failures. -/
def mended (input : Input) : Input := input.filter fun event => !event.isFailure

theorem mended_failed (text : String) (rest : Input) :
    mended (.failed text :: rest) = mended rest := by
  simp [mended, Event.isFailure]

theorem failures_failed (text : String) (rest : Input) :
    failures (.failed text :: rest) = failures rest + 1 :=
  List.countP_cons_of_pos rfl

theorem mended_cons {event : Event} (h : event.isFailure = false) (rest : Input) :
    mended (event :: rest) = event :: mended rest := by
  simp [mended, h]

theorem failures_cons {event : Event} (h : event.isFailure = false) (rest : Input) :
    failures (event :: rest) = failures rest := by
  simp [failures, h]

theorem receive_mended {input : Input} {byte : UInt8} (h : input.receive.answer = .ok byte) :
    input.mended.receive =
        ⟨.ok byte, input.receive.unread.mended, input.receive.canceled⟩ ∧
      input.receive.unread.failures = input.failures := by
  induction input with
  | nil =>
    cases h
    exact ⟨rfl, rfl⟩
  | cons event rest ih =>
    cases event with
    | failed text => cases h
    | interrupted =>
      rw [mended_cons rfl, failures_cons rfl]
      exact ih h
    | cancel =>
      obtain ⟨hreceive, hfailures⟩ := ih h
      rw [mended_cons rfl, failures_cons rfl, receive, hreceive]
      exact ⟨rfl, hfailures⟩
    | _ =>
      cases h
      rw [mended_cons rfl, failures_cons rfl]
      exact ⟨rfl, rfl⟩

/-- A read that fails uses one failure up, and on the mended input it would go on to what is left.
Interruptions in front of the failure are all that the two inputs differ in. -/
theorem receive_mended_of_error {input : Input} {text : String} (hc : Event.cancel ∉ input)
    (h : input.receive.answer = .error text) :
    input.mended.receive = input.receive.unread.mended.receive ∧
      input.receive.unread.failures + 1 = input.failures := by
  induction input with
  | nil => cases h
  | cons event rest ih =>
    cases event with
    | failed text =>
      rw [mended_failed, failures_failed]
      exact ⟨rfl, rfl⟩
    | interrupted =>
      rw [mended_cons rfl, failures_cons rfl]
      exact ih (fun hmem => hc (List.mem_cons_of_mem _ hmem)) h
    | cancel => exact absurd (List.mem_cons_self ..) hc
    | _ => cases h

end Input

/-- The evaluation has ended because a byte could not be read or written. -/
def Ending.IsIo (ending : Ending) : Prop := ∃ site text, ending = .failed (.io site text)

namespace Machine

/-- The machine on the input without failures. -/
def mended (m : Machine) : Machine := { m with input := m.input.mended }

/-- Nobody cancels, and every write succeeds. -/
structure Steady (m : Machine) : Prop where
  quiet : m.Quiet
  written : m.output.Flawless

/-- What a machine has become after a number of calls, each of which has reported a byte that could
not be read or written. -/
inductive Retried (job : Job) (traced : Bool) : Machine → Nat → Machine → Prop where
  | refl (m : Machine) : Retried job traced m 0 m
  | again {m m₁ m' : Machine} {site : Site} {text : String} {n : Nat}
      (hrun : m.RunsTo job traced (.failed (.io site text)) m₁)
      (rest : Retried job traced m₁ n m') : Retried job traced m (n + 1) m'

variable {job : Job} {traced : Bool} {i : Instruction} {m m₁ m' final : Machine}
  {ending : Ending} {site : Site} {text : String} {n : Nat}

/-! ## Single instructions -/

theorem perform_input (i : Instruction) (m : Machine) :
    (m.perform i).1.input = if i = .read then m.input.receive.unread else m.input := by
  obtain ⟨tape, pc, steps, input, output, control⟩ := m
  cases i with
  | read =>
    simp only [perform, receive]
    cases input.receive with
    | mk answer unread canceled => cases answer <;> rfl
  | write => rfl
  | _ =>
    simp only [perform, adjust_eq_moved]
    cases Instruction.onTape _ tape <;> rfl

theorem flawless_perform (ho : m.output.Flawless) (i : Instruction) :
    (m.perform i).1.output.Flawless := by
  by_cases hw : i = .write
  · subst hw
    rw [perform_write, ho.sendByte_eq]
    exact ho.push _
  · rwa [perform_output hw]

theorem perform_mended (h : ∀ text, (m.perform i).2 ≠ some (.io text)) :
    m.mended.perform i = ((m.perform i).1.mended, (m.perform i).2) ∧
      (m.perform i).1.input.failures = m.input.failures := by
  obtain ⟨tape, pc, steps, input, output, control⟩ := m
  cases i with
  | read =>
    simp only [perform, receive, mended] at h ⊢
    cases hanswer : input.receive.answer with
    | error text =>
      simp only [hanswer] at h
      exact absurd rfl (h text)
    | ok byte =>
      obtain ⟨hreceive, hfailures⟩ := Input.receive_mended hanswer
      simp only [hreceive]
      exact ⟨trivial, hfailures⟩
  | write => exact ⟨rfl, rfl⟩
  | _ =>
    simp only [perform, adjust_eq_moved, mended]
    cases Instruction.onTape _ tape <;> simp [moved]

theorem answer_of_read (h : m.perform .read = (m', some (.io text))) :
    m.input.receive.answer = .error text := by
  obtain ⟨tape, pc, steps, input, output, control⟩ := m
  simp only [perform, receive] at h
  cases hanswer : input.receive.answer with
  | ok byte =>
    simp only [hanswer] at h
    cases h
  | error text' =>
    simp only [hanswer] at h
    cases h
    rfl

theorem EndsAfter.congr (h : m.advance job = m'.advance job)
    (he : EndsAfter job n m ending final) : EndsAfter job n m' ending final := by
  cases hs : m.advance job with
  | next m₁ =>
    obtain ⟨k, rfl, hk⟩ := he.of_next hs
    exact hk.succ (h.symm.trans hs)
  | stop e m₁ =>
    obtain ⟨rfl, rfl, rfl⟩ := he.unique (.zero hs)
    exact .zero (h.symm.trans hs)

/-! ## Steps -/

section

variable (hlive : job.mode = .live)

include hlive

theorem advance_mended_next (hs : m.advance job = .next m') :
    m.mended.advance job = .next m'.mended ∧ m'.input.failures = m.input.failures := by
  obtain ⟨i, hi, hstep⟩ := advance_next hs
  obtain ⟨flow, m₁, hflow, hperform, rfl⟩ := step_live_next hlive hstep
  have hsame : m.mended.perform i = (m₁.mended, none) ∧ m₁.input.failures = m.input.failures := by
    have hmended := perform_mended (m := m) (i := i)
    rw [hperform] at hmended
    exact hmended nofun
  obtain ⟨hperform', hfailures⟩ := hsame
  have hi' : m.mended.pending job = .ok i := hi
  have hflow' : job.flow? m.mended.pc m.mended.tape.cell i = some flow := hflow
  refine ⟨?_, hfailures⟩
  rw [advance_of_pending hi']
  simp only [step, hflow', hlive, hperform']
  rfl

theorem advance_mended_stop (hs : m.advance job = .stop ending m') (hio : ¬ending.IsIo) :
    m.mended.advance job = .stop ending m'.mended := by
  rcases advance_stop hs with ⟨hp, rfl⟩ | ⟨i, hi, hstep⟩
  · exact advance_of_pending_error hp
  · have hi' : m.mended.pending job = .ok i := hi
    rw [advance_of_pending hi']
    cases hflow : job.flow? m.pc m.tape.cell i with
    | none =>
      have hflow' : job.flow? m.mended.pc m.mended.tape.cell i = none := hflow
      rw [step, hflow] at hstep
      cases hstep
      rw [step, hflow']
    | some flow =>
      have hflow' : job.flow? m.mended.pc m.mended.tape.cell i = some flow := hflow
      rcases step_live_stop hlive hstep with ⟨_, hnone⟩ | ⟨trouble, rfl, hperform⟩
      · rw [hflow] at hnone
        cases hnone
      · have hcause : ∀ text, some trouble ≠ some (.io text) := by
          rintro text htext
          cases htext
          exact hio ⟨_, _, rfl⟩
        have hmended := perform_mended (m := m) (i := i)
        rw [hperform] at hmended
        have hpc : m'.mended.pc = m.mended.pc := (step_stop hstep).1.pc
        simp only [step, hflow', hlive, (hmended hcause).1, conclude, hpc]
        rfl

theorem read_of_io (ho : m.output.Flawless)
    (hs : m.advance job = .stop (.failed (.io site text)) m') :
    m.pending job = .ok .read ∧ m.perform .read = (m', some (.io text)) := by
  obtain ⟨i, trouble, hi, hperform, hcause, hblames⟩ := blamed_of_stop hlive hs rfl
  cases hblames with
  | overrun _ _ => cases hcause
  | io htransfers =>
    cases hcause
    rcases htransfers with rfl | rfl
    · exact ⟨hi, hperform⟩
    · rw [perform_write, ho.sendByte_eq] at hperform
      cases hperform

/-- What is left by a read that fails has the next step before it that the machine would take on the
mended input, and one failure less. -/
theorem advance_mended_of_io (hm : m.Steady)
    (hs : m.advance job = .stop (.failed (.io site text)) m') :
    m.mended.advance job = m'.mended.advance job ∧ m'.input.failures + 1 = m.input.failures := by
  obtain ⟨hi, hperform⟩ := read_of_io hlive hm.written hs
  have hcontrol := (hm.quiet.of_stop hlive hs).2
  have hstill := still_of_stop hs
  have htape := tape_of_trouble hperform
  have hanswer := answer_of_read hperform
  have hunread : m'.input = m.input.receive.unread := by
    have hinput := perform_input .read m
    rwa [hperform] at hinput
  have houtput : m'.output = m.output := by
    have hwritten := perform_output (i := .read) nofun m
    rwa [hperform] at hwritten
  obtain ⟨hreceive, hfailures⟩ := Input.receive_mended_of_error hm.quiet.input hanswer
  rw [← hunread] at hreceive hfailures
  refine ⟨?_, hfailures⟩
  -- Apart from what is left to read, the failure has changed nothing.
  have hpending : m'.mended.pending job = .ok .read := by
    rw [← hi]
    simp only [pending, mended, hstill.pc, hstill.steps, hcontrol]
  have hpending' : m.mended.pending job = .ok .read := hi
  have hperformed : m.mended.perform .read = m'.mended.perform .read := by
    simp only [perform, Machine.receive, mended, hreceive, htape, hstill.pc, hstill.steps,
      hcontrol, houtput]
  rw [advance_of_pending hpending, advance_of_pending hpending']
  simp only [step, Job.flow?, hlive, hperformed]

theorem Steady.of_next (hm : m.Steady) (hs : m.advance job = .next m') : m'.Steady := by
  refine ⟨(hm.quiet.of_next hlive hs).1, ?_⟩
  obtain ⟨i, _, hstep⟩ := advance_next hs
  obtain ⟨flow, m₁, _, hperform, rfl⟩ := step_live_next hlive hstep
  have hwritten := flawless_perform hm.written i
  rwa [hperform] at hwritten

theorem Steady.of_io (hm : m.Steady) (hs : m.advance job = .stop (.failed (.io site text)) m') :
    m'.Steady := by
  refine ⟨(hm.quiet.of_stop hlive hs).1, ?_⟩
  have hwritten := flawless_perform hm.written .read
  rwa [(read_of_io hlive hm.written hs).2] at hwritten

/-! ## Calls -/

theorem after_mended (h : m.after job n = some m') :
    m.mended.after job n = some m'.mended ∧ m'.input.failures = m.input.failures := by
  refine ⟨after_map (fun hs => (advance_mended_next hlive hs).1) h, ?_⟩
  refine after_keeps (P := fun m' => m'.input.failures = m.input.failures) ?_ rfl h
  intro m₁ m₂ hsame hs
  exact (advance_mended_next hlive hs).2.trans hsame

theorem Steady.of_after (hm : m.Steady) (h : m.after job n = some m') : m'.Steady :=
  after_keeps (fun _ _ hsteady hs => hsteady.of_next hlive hs) hm h

theorem runsTo_mended (h : m.RunsTo job traced ending m') (hio : ¬ending.IsIo) :
    m.mended.RunsTo job traced ending m'.mended := by
  obtain ⟨n, last, hlast, hstop⟩ := (runsTo_iff hlive).1 h
  exact (runsTo_iff hlive).2
    ⟨n, last.mended, (after_mended hlive hlast).1, advance_mended_stop hlive hstop hio⟩

theorem endless_mended (h : m.Endless job traced) : m.mended.Endless job traced := by
  rw [endless_iff_of_begin (begin_live hlive _)] at h ⊢
  intro n
  obtain ⟨m₁, hm₁⟩ := Option.ne_none_iff_exists'.1 (h n)
  rw [(after_mended hlive hm₁).1]
  exact Option.some_ne_none _

/-- A call that reports a byte that could not be read leaves a machine that comes to the same on the
mended input, without any step being made twice. -/
theorem runsTo_mended_iff_of_io (hm : m.Steady)
    (h : m.RunsTo job traced (.failed (.io site text)) m') :
    (∀ ending final, m.mended.RunsTo job traced ending final ↔
        m'.mended.RunsTo job traced ending final) ∧
      m'.Steady ∧ m'.input.failures + 1 = m.input.failures := by
  obtain ⟨n, last, hlast, hstop⟩ := (runsTo_iff hlive).1 h
  obtain ⟨hreach, hsame⟩ := after_mended hlive hlast
  have hsteady := hm.of_after hlive hlast
  obtain ⟨hadvance, hfailures⟩ := advance_mended_of_io hlive hsteady hstop
  refine ⟨fun ending final => ?_, hsteady.of_io hlive hstop, hfailures.trans hsame⟩
  rw [runsTo_iff hlive, runsTo_iff hlive]
  constructor
  · rintro ⟨k, he⟩
    obtain ⟨l, _, hl⟩ := he.drop hreach
    exact ⟨l, hl.congr hadvance⟩
  · rintro ⟨k, he⟩
    exact ⟨n + k, .of_after hreach (he.congr hadvance.symm)⟩

theorem Retried.mended (h : Retried job traced m n m') (hm : m.Steady) :
    (∀ ending final, m.mended.RunsTo job traced ending final ↔
        m'.mended.RunsTo job traced ending final) ∧
      m'.Steady ∧ m'.input.failures + n = m.input.failures := by
  induction h with
  | refl m => exact ⟨fun _ _ => Iff.rfl, hm, rfl⟩
  | again hrun _ ih =>
    obtain ⟨hiff, hm₁, hfailures⟩ := runsTo_mended_iff_of_io hlive hm hrun
    obtain ⟨hiff', hm', hfailures'⟩ := ih hm₁
    exact ⟨fun ending final => (hiff ending final).trans (hiff' ending final), hm', by omega⟩

/-- Sooner or later there is a call that does not report such a byte, be it that it comes to no end.
By induction on the failures that are left, of which every other call uses one up. -/
theorem exists_retried (hm : m.Steady) (traced : Bool) :
    ∃ n m', Retried job traced m n m' ∧
      (m'.Endless job traced ∨
        ∃ ending last, ¬ending.IsIo ∧ m'.RunsTo job traced ending last) := by
  generalize hk : m.input.failures = k
  induction k using Nat.strongRecOn generalizing m with
  | ind k ih =>
    by_cases hendless : m.Endless job traced
    · exact ⟨0, m, .refl m, .inl hendless⟩
    · rw [endless_iff_not_runsTo] at hendless
      simp only [Classical.not_forall, Classical.not_not] at hendless
      obtain ⟨ending, m₁, hrun⟩ := hendless
      by_cases hio : ending.IsIo
      · obtain ⟨site, text, rfl⟩ := hio
        obtain ⟨_, hm₁, hless⟩ := runsTo_mended_iff_of_io hlive hm hrun
        obtain ⟨n, m', hretried, hend⟩ := ih _ (by omega) hm₁ rfl
        exact ⟨n + 1, m', .again hrun hretried, hend⟩
      · exact ⟨0, m, .refl m, .inr ⟨ending, m₁, hio, hrun⟩⟩

/-- Calls that are repeated for as long as they report a byte that could not be read come to what a
single call comes to on the input without the failures: the same end with the same tape, counter,
number of steps and output, and with the same left to read if no account is taken of failures. Or
else both go on for ever. There are no more repetitions than failures. -/
theorem runsTo_mended_iff (hm : m.Steady) :
    (∀ ending final, m.mended.RunsTo job traced ending final ↔
      ¬ending.IsIo ∧ ∃ n m₁ last, Retried job traced m n m₁ ∧ m₁.RunsTo job traced ending last ∧
        last.mended = final) ∧
    (m.mended.Endless job traced ↔
      ∃ n m₁, Retried job traced m n m₁ ∧ m₁.Endless job traced) ∧
    ∀ n m₁, Retried job traced m n m₁ → n ≤ m.input.failures := by
  have hback : ∀ {n m₁}, Retried job traced m n m₁ → ∀ {ending last}, ¬ending.IsIo →
      m₁.RunsTo job traced ending last → m.mended.RunsTo job traced ending last.mended := by
    intro n m₁ hretried ending last hio hrun
    exact ((hretried.mended hlive hm).1 _ _).2 (runsTo_mended hlive hrun hio)
  have hforever : ∀ {n m₁}, Retried job traced m n m₁ → m₁.Endless job traced →
      m.mended.Endless job traced := by
    intro n m₁ hretried hendless
    have hmended := endless_mended hlive hendless
    rw [endless_iff_not_runsTo] at hmended ⊢
    intro ending final hrun
    exact hmended ending final (((hretried.mended hlive hm).1 _ _).1 hrun)
  obtain ⟨n, m₁, hretried, hcome⟩ := exists_retried hlive hm traced
  refine ⟨fun ending final => ⟨fun hrun => ?_, ?_⟩, ⟨fun hendless => ?_, ?_⟩, ?_⟩
  · rcases hcome with hendless | ⟨ending', last, hio, hlast⟩
    · exact absurd hrun (endless_iff_not_runsTo.1 (hforever hretried hendless) _ _)
    · obtain ⟨rfl, rfl⟩ := hrun.unique (hback hretried hio hlast)
      exact ⟨hio, n, m₁, last, hretried, hlast, rfl⟩
  · rintro ⟨hio, n, m₁, last, hretried, hlast, rfl⟩
    exact hback hretried hio hlast
  · rcases hcome with hforever | ⟨ending', last, hio, hlast⟩
    · exact ⟨n, m₁, hretried, hforever⟩
    · exact absurd (hback hretried hio hlast) (endless_iff_not_runsTo.1 hendless _ _)
  · rintro ⟨n, m₁, hretried, hendless⟩
    exact hforever hretried hendless
  · intro n m₁ hretried
    have hfailures := (hretried.mended hlive hm).2.2
    omega

end

/-- The reads of `,.,` meet three failures, two of them one after the other. -/
theorem runsTo_mended_three :
    let p : Program := ⟨#[⟨.read, 0⟩, ⟨.write, 1⟩, ⟨.read, 2⟩]⟩
    let job : Job := ⟨p, ⟨#[none, none, none], 0⟩, .live⟩
    let input : Input := [.failed "a", .interrupted, .byte 7, .failed "b", .failed "c", .byte 8]
    let m : Machine := ⟨Tape.new 1 .wrap, 0, 0, input, {}, none⟩
    let final : Machine :=
      ⟨(Tape.new 1 .wrap).store 8, 3, 3, [], { taken := #[7], flushes := 1 }, none⟩
    job.mode = .live ∧ m.Steady ∧ m.input.failures = 3 ∧ m.mended.RunsTo job false .finished final ∧
      ∃ n m₁ last, Retried job false m n m₁ ∧ m₁.RunsTo job false .finished last ∧
        last.mended = final := by
  intro p job input m final
  have hm : m.Steady := ⟨⟨by decide, rfl, rfl⟩, ⟨rfl, rfl, rfl, rfl⟩⟩
  have hrun : m.mended.RunsTo job false .finished final := ⟨4, #[], by cbv⟩
  exact ⟨rfl, hm, rfl, hrun, (((runsTo_mended_iff rfl hm).1 _ _).1 hrun).2⟩

end Machine

end TapeMachine
