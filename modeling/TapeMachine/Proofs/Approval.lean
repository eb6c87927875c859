import TapeMachine.Proofs.Acceptance
import TapeMachine.Proofs.Running

/-!
# TapeMachine.Proofs.Approval

The command that checks a text approves the texts that are programs, and the command that runs it
rejects all others in the same words.

* `Executes.not_rejected` — no evaluation of a program ends with a rejection.
* `check_of_ok`, `check_of_error` — the command that checks a text.
* `run_of_error`   — the command that runs a text that is rejected.
* `check_approves` — both commands, for every text.
-/

namespace TapeMachine

namespace Machine

variable {job : Job} {m m' : Machine} {ending : Ending}

theorem not_rejected_of_stop (h : m.advance job = .stop ending m') (cause : Rejection) :
    ending ≠ .failed (.rejected cause) := by
  rintro rfl
  rcases advance_stop h with ⟨hp, _⟩ | ⟨i, _, hstep⟩
  · rcases pending_eq_error hp with ⟨hending, _⟩ | ⟨_, ⟨hending, _⟩ | ⟨_, hending, _⟩⟩ <;>
      cases hending
  · rcases (step_stop hstep).2 with ⟨hending, _⟩ | ⟨trouble, hending⟩
    · cases hending
    · cases trouble <;> cases hending

theorem Call.not_rejected (h : Call job m ending m') (cause : Rejection) :
    ending ≠ .failed (.rejected cause) := by
  cases h with
  | @refused _ trouble _ => cases trouble <;> exact nofun
  | ended _ _ hstop => exact not_rejected_of_stop hstop cause

end Machine

namespace Interpreter

variable {mode : Mode} {source : String} {input input' : Input} {output output' : Output}
  {it it' : Interpreter} {ending : Ending} {program : Program} {jumps : JumpTable}

theorem Executes.not_rejected (h : Executes mode source input output it ending it' input' output')
    (hread : read source = .ok (program, jumps)) (cause : Rejection) :
    ending ≠ .failed (.rejected cause) := by
  cases h with
  | rejected hread' => cases hread.symm.trans hread'
  | ran _ hcall => exact hcall.not_rejected cause

end Interpreter

namespace Command

variable {h : Host} {o : Options} {code : List String} {source : String} {cause : Rejection}

theorem check_of_text (hhelp : o.help = false)
    (hrequest : Requests h.read o.file code (.text source)) :
    check h o code = checkSource h source := by
  simp only [check, hhelp, if_neg Bool.false_ne_true, requests_text_iff.1 hrequest]

theorem check_of_ok {p : Program} {jumps : JumpTable} (hhelp : o.help = false)
    (hrequest : Requests h.read o.file code (.text source))
    (hread : Interpreter.read source = .ok (p, jumps)) (ho : h.output.Flawless) :
    let I := Program.countSymbols source.toList
    let L := source.toList.count '['
    ∃ log, check h o code = .exited 0 ⟨h.input,
      h.output.append (s!"ok: {I} instructions, {L} loops".toUTF8.toList ++ [10]), "", log⟩ := by
  intro I L
  have happroval : approval (Interpreter.summary p jumps) =
      s!"ok: {I} instructions, {L} loops" := by
    rw [Interpreter.summary_eq hread]
    rfl
  rw [check_of_text hhelp hrequest]
  simp only [checkSource, Interpreter.check, hread, happroval, Output.writeLine, ho.write_eq]
  exact ⟨_, rfl⟩

theorem check_of_error (hhelp : o.help = false)
    (hrequest : Requests h.read o.file code (.text source))
    (hread : Interpreter.read source = .error cause) :
    ∃ log, check h o code = .exited 1 ⟨h.input, h.output,
      (Failure.rejected cause).report (some h.program) source h.errorLabel, log⟩ := by
  rw [check_of_text hhelp hrequest]
  simp only [checkSource, Interpreter.check, hread]
  exact ⟨_, rfl⟩

/-- A text that is rejected is so whatever the settings, as long as there is a tape. -/
theorem run_of_error {file : Layer} (hhelp : o.help = false) (hhandler : h.handler = none)
    (hfile : Configures h o file) (htimeout : (settingsBy h o file).timeoutMs = none)
    (hcapacity : (settingsBy h o file).capacity ≤ Tape.maxCapacity)
    (hrequest : Requests h.read o.file code (.text source))
    (hread : Interpreter.read source = .error cause) (s : Log.Selection) :
    ∃ log, ∀ fuel, run h s fuel o code = some (.exited 1 ⟨h.input, h.output,
      (Failure.rejected cause).report (some h.program) source h.errorLabel, log⟩) := by
  refine ⟨(settle h o).2 ++ [.noted .reset, .noted (.rejected cause)], fun fuel => ?_⟩
  rw [run_of_text hhelp hhandler hfile htimeout hcapacity hrequest,
    Interpreter.execute_of_error hread, Option.map_some, outcomeOf]
  cases o.debug <;> rfl

/-- A text with an instruction in it and with brackets that nest is approved with its size, and no
evaluation of it is a rejection. Any other text is rejected for one cause and in the same words by
the command that checks it and by the one that runs it, in a table or not, which then neither read
nor write anything. The whole process only selects the events that are logged. -/
theorem check_approves (source : String) :
    let I := Program.countSymbols source.toList
    let L := source.toList.count '['
    (0 < I ∧ Program.Nested source.toList →
      (∀ h o code, o.help = false → Requests h.read o.file code (.text source) →
        h.output.Flawless → ∃ log, check h o code = .exited 0 ⟨h.input,
          h.output.append (s!"ok: {I} instructions, {L} loops".toUTF8.toList ++ [10]), "",
          log⟩) ∧
      ∀ mode input output it ending it' input' output',
        Interpreter.Executes mode source input output it ending it' input' output' →
        ∀ cause, ending ≠ .failed (.rejected cause)) ∧
    (¬(0 < I ∧ Program.Nested source.toList) →
      ∃ cause,
        (∀ h : Host,
          let errors := (Failure.rejected cause).report (some h.program) source
            (Report.errorLabel h.terminal h.paint)
          (∀ o code, o.help = false → Requests h.read o.file code (.text source) →
            ∃ log, check h o code = .exited 1 ⟨h.input, h.output, errors, log⟩) ∧
          ∀ o code file, o.help = false → Requests h.read o.file code (.text source) →
            h.handler = none → Configures h o file →
            (settingsBy h o file).timeoutMs = none →
            (settingsBy h o file).capacity ≤ Tape.maxCapacity →
            ∀ s, ∃ log, ∀ fuel,
              run h s fuel o code = some (.exited 1 ⟨h.input, h.output, errors, log⟩)) ∧
        ∀ mode input output it ending it' input' output',
          Interpreter.Executes mode source input output it ending it' input' output' →
          ending = .failed (.rejected cause) ∧ input' = input ∧ output' = output) ∧
    ∀ h s verbose, h.log.selection verbose = .ok s → ∀ fuel o code,
      serve h fuel ⟨false, verbose, some (.check o code)⟩ =
          some ((check h o code).filtered s) ∧
        serve h fuel ⟨false, verbose, some (.run o code)⟩ =
          (run h s fuel o code).map (·.filtered s) := by
  intro I L
  rw [← Interpreter.exists_read_iff]
  refine ⟨?_, ?_, fun h s verbose hlog fuel o code =>
    ⟨serve_of_ok hlog fuel, serve_of_ok hlog fuel⟩⟩
  · rintro ⟨program, jumps, hread⟩
    exact ⟨fun h o code hhelp hrequest ho => check_of_ok hhelp hrequest hread ho,
      fun mode input output it ending it' input' output' hexec => hexec.not_rejected hread⟩
  · intro hnone
    cases hread : Interpreter.read source with
    | ok loaded => exact absurd ⟨loaded.1, loaded.2, hread⟩ hnone
    | error cause =>
      refine ⟨cause, fun h => ⟨fun o code hhelp hrequest => check_of_error hhelp hrequest hread,
        fun o code file hhelp hrequest hhandler hfile htimeout hcapacity s =>
          run_of_error hhelp hhandler hfile htimeout hcapacity hrequest hread s⟩, ?_⟩
      intro mode input output it ending it' input' output' hexec
      cases hexec with
      | rejected hread' =>
        cases hread.symm.trans hread'
        exact ⟨rfl, rfl, rfl⟩
      | ran hread' _ => cases hread.symm.trans hread'

/-- `+[-]` in two words, and a `]` that closes nothing: checked, and asked for in a table. -/
theorem check_approves_words :
    let h : Host :=
      { program := "bf"
        lookup := fun _ => none
        read := fun _ => .error "No such file or directory (os error 2)"
        input := Input.ofBytes [65]
        output := {}
        terminal := false
        paint := id
        log := ⟨.error .useless, fun _ => ⟨fun _ => true⟩⟩
        configHome := none
        handler := none
        clock := fun _ => none }
    let errors := "bf: error: Parse error: ']' without matching '[' (position: 2)\n  +]\n   ^\n"
    (∃ log, check h {} ["+[", "-]"] = .exited 0 ⟨Input.ofBytes [65],
      Output.append ("ok: 4 instructions, 1 loops".toUTF8.toList ++ [10]) {}, "", log⟩) ∧
    (∃ log, check h {} ["+]"] = .exited 1 ⟨Input.ofBytes [65], {}, errors, log⟩) ∧
    ∃ log, ∀ fuel, run h ⟨fun _ => true⟩ fuel { debug := true } ["+]"] =
      some (.exited 1 ⟨Input.ofBytes [65], {}, errors, log⟩) := by
  intro h errors
  have hnested := Interpreter.exists_read_iff.1 ⟨_, _, (rfl : Interpreter.read "+[-]" = .ok _)⟩
  have hloose : ¬Program.Nested "+]".toList := fun hnested => absurd hnested.settled (by decide)
  have hfile : Configures h { debug := true } .empty := .nowhere (.nowhere rfl rfl)
  obtain ⟨log, happroved⟩ :=
    ((check_approves "+[-]").1 hnested).1 h {} ["+[", "-]"] rfl .words ⟨rfl, rfl, rfl, rfl⟩
  obtain ⟨cause, hrejects, hexec⟩ := (check_approves "+]").2.1 fun hgood => hloose hgood.2
  -- One evaluation tells the cause.
  obtain rfl : cause = .unmatchedClose 2 1 := by
    have hrejected := (hexec .live [] {} (Interpreter.new 1 .wrap) _ _ _ _
      (.rejected (rfl : Interpreter.read "+]" = .error (.unmatchedClose 2 1)))).1
    cases hrejected
    rfl
  have herrors : (Failure.rejected (.unmatchedClose 2 1)).report (some "bf") "+]" "error" =
      errors := by decide +kernel
  obtain ⟨hchecked, hran⟩ := hrejects h
  obtain ⟨logChecked, hchecked⟩ := hchecked {} ["+]"] rfl .words
  obtain ⟨logRan, hran⟩ :=
    hran { debug := true } ["+]"] .empty rfl .words rfl hfile rfl (by decide) ⟨fun _ => true⟩
  rw [← herrors]
  exact ⟨⟨log, happroved⟩, ⟨logChecked, hchecked⟩, logRan, hran⟩

end Command

end TapeMachine
