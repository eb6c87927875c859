import TapeMachine.Proofs.Running

/-!
# TapeMachine.Proofs.Abandonment

How the process can come to an end, for every invocation.

* `Outcome.exitCode` — the exit code of the process.
* `Abandons`         — the three cases in which the process is abandoned: the log cannot be set up,
  the tape is too large to be asked for, or the line that approves a text is refused.
* `KeepsRunning`     — a text that is evaluated comes to no end.
* `serve_mono`       — more fuel does not change an outcome.
* `serve_ends`       — every invocation ends with an exit code of at most 2, or keeps running, or is
  abandoned in one of those cases.
-/

namespace TapeMachine

namespace Command

/-- The exit code of the process. One that is abandoned exits with 101. -/
def Outcome.exitCode : Outcome → Nat
  | exited status _ => status
  | abandoned _ _ => 101

/-- What the process is abandoned for, and what it has written by then. -/
inductive Abandons (h : Host) : Invocation → Fault → Output → Prop where
  | logging {i : Invocation} {text : String} (hlog : h.log.selection i.verbose = .error text) :
      Abandons h i (.logging text) h.output
  | tape {verbose : Bool} {o : Options} {code : List String} {source : String} {file : Layer}
      {s : Log.Selection} (hlog : h.log.selection verbose = .ok s) (hhelp : o.help = false)
      (hsource : Requests h.read o.file code (.text source)) (hhandler : h.handler = none)
      (hfile : Configures h o file)
      (hcapacity : Tape.maxCapacity < (settingsBy h o file).capacity) :
      Abandons h ⟨false, verbose, some (.run o code)⟩ .tapeTooLarge h.output
  | printing {verbose : Bool} {o : Options} {code : List String} {source refusal : String}
      {program : Program} {jumps : JumpTable} {output : Output} {s : Log.Selection}
      (hlog : h.log.selection verbose = .ok s) (hhelp : o.help = false)
      (hsource : Requests h.read o.file code (.text source))
      (hread : Interpreter.read source = .ok (program, jumps))
      (hrefusal : h.output.writeLine (approval (Interpreter.summary program jumps)) =
        (output, some refusal)) :
      Abandons h ⟨false, verbose, some (.check o code)⟩ (.printing refusal) output

/-- How an invocation may end: with an exit code of at most 2, or abandoned for a reason. -/
inductive Ends (h : Host) (i : Invocation) : Outcome → Prop where
  | orderly {outcome : Outcome} (hcode : outcome.exitCode ≤ 2) : Ends h i outcome
  | abandoned {fault : Fault} {output : Output} (habandons : Abandons h i fault output) :
      Ends h i (.abandoned fault output)

/-- The demos that an invocation asks for. -/
def chosen : Option Demo → List Demo
  | some demo => [demo]
  | none => Demo.all

/-- A text that is evaluated for the invocation comes to no end. -/
inductive KeepsRunning (h : Host) : Invocation → Prop where
  | run {verbose : Bool} {o : Options} {code : List String} {source : String} {file : Layer}
      (hsource : Requests h.read o.file code (.text source)) (hfile : Configures h o file)
      (hendless : (runner h (settingsBy h o file)).Endless (if o.debug then .table else .live)
        source (if o.debug then [] else h.input) h.output) :
      KeepsRunning h ⟨false, verbose, some (.run o code)⟩
  | demo {verbose : Bool} {o : Options} {name : Option Demo} {demo : Demo} {input : Input}
      {output : Output} (hdemo : demo ∈ chosen name)
      (hendless : (Interpreter.new Tape.defaultCapacity (o.policy.getD .wrap)).Endless .live
        demo.source input output) :
      KeepsRunning h ⟨false, verbose, some (.demo o name)⟩

variable {h : Host} {i : Invocation} {o : Options} {s : Log.Selection} {fuel more : Nat}
  {source : String} {code : List String} {name : Option Demo} {outcome : Outcome}
  {traced : Bool} {p : Plan}

/-! ## Plans -/

/-- What is left of an invocation when nothing has been evaluated: it may have ended, or there is a
text to run, or there are demos. -/
inductive Undertakes (h : Host) (i : Invocation) : Plan → Prop where
  | settled {outcome : Outcome} (hends : Ends h i outcome) : Undertakes h i (.settled outcome)
  | text {verbose : Bool} {o : Options} {code : List String} {source : String} {file : Layer}
      (hi : i = ⟨false, verbose, some (.run o code)⟩)
      (hsource : Requests h.read o.file code (.text source)) (hfile : Configures h o file) :
      Undertakes h i (.text (trial h o (settingsBy h o file) source))
  | demos {verbose : Bool} {o : Options} {name : Option Demo}
      (hi : i = ⟨false, verbose, some (.demo o name)⟩) :
      Undertakes h i
        (.demos (Interpreter.new Tape.defaultCapacity (o.policy.getD .wrap)) (chosen name))

theorem undertakes_explained {status : Nat} (hstatus : status ≤ 2) (errors : String) :
    Undertakes h i (.settled (explained h status errors)) :=
  .settled (.orderly hstatus)

theorem exists_explained (h : Host) (usage : String) (cause : NoSource) :
    ∃ status errors, status ≤ 2 ∧ withoutSource h usage cause = explained h status errors := by
  cases cause with
  | missing => exact ⟨2, _, Nat.le_refl 2, rfl⟩
  | conflict => exact ⟨2, _, Nat.le_refl 2, rfl⟩
  | unreadable path error => exact ⟨1, _, Nat.le_succ 1, rfl⟩

theorem undertakes_withoutSource (usage : String) (cause : NoSource) :
    Undertakes h i (.settled (withoutSource h usage cause)) := by
  obtain ⟨status, errors, hstatus, hexplained⟩ := exists_explained h usage cause
  rw [hexplained]
  exact undertakes_explained hstatus errors

section

variable {verbose : Bool} (hlog : h.log.selection verbose = .ok s)

include hlog

theorem undertakes_run :
    Undertakes h ⟨false, verbose, some (.run o code)⟩ (planRun h o code) := by
  rw [planRun]
  cases hhelp : o.help with
  | true => exact undertakes_explained (Nat.zero_le 2) _
  | false =>
    simp only [if_neg Bool.false_ne_true]
    cases hload : loadSource h.read o.file code with
    | error cause => exact undertakes_withoutSource _ cause
    | ok source =>
      have hsource := requests_text_iff.2 hload
      have hfile := configures_fileLayer h o
      cases hhandler : h.handler with
      | some error =>
        simp only [prepare_of_handler hhandler]
        exact .settled (.orderly (Nat.le_succ 1))
      | none =>
        rcases Nat.lt_or_ge Tape.maxCapacity (settingsBy h o (fileLayer h o).1).capacity with
          hlarge | hfits
        · simp only [prepare_of_large hfile hhandler hlarge]
          exact .settled (.abandoned (.tape hlog hhelp hsource hhandler hfile hlarge))
        · simp only [prepare_eq hfile hhandler hfits]
          exact .text rfl hsource hfile

theorem undertakes_check :
    Undertakes h ⟨false, verbose, some (.check o code)⟩ (.settled (check h o code)) := by
  rw [check]
  cases hhelp : o.help with
  | true => exact undertakes_explained (Nat.zero_le 2) _
  | false =>
    simp only [if_neg Bool.false_ne_true]
    cases hload : loadSource h.read o.file code with
    | error cause => exact undertakes_withoutSource _ cause
    | ok source =>
      cases hread : Interpreter.read source with
      | error cause =>
        simp only [checkSource, Interpreter.check, hread]
        exact .settled (.orderly (Nat.le_succ 1))
      | ok loaded =>
        obtain ⟨program, jumps⟩ := loaded
        simp only [checkSource, Interpreter.check, hread]
        cases hwrite : h.output.writeLine (approval (Interpreter.summary program jumps)) with
        | mk output refused =>
          cases refused with
          | none => exact .settled (.orderly (Nat.zero_le 2))
          | some refusal =>
            exact .settled
              (.abandoned (.printing hlog hhelp (requests_text_iff.2 hload) hread hwrite))

end

theorem undertakes_demo (verbose : Bool) :
    Undertakes h ⟨false, verbose, some (.demo o name)⟩ (planDemo h o name) := by
  simp only [planDemo]
  cases o.help with
  | true => exact undertakes_explained (Nat.zero_le 2) _
  | false =>
    simp only [if_neg Bool.false_ne_true]
    cases h.handler with
    | some error => exact .settled (.orderly (Nat.le_succ 1))
    | none => cases name <;> exact .demos rfl

theorem undertakes_plan (hlog : h.log.selection i.verbose = .ok s) :
    Undertakes h i (plan h i) := by
  obtain ⟨help, verbose, task⟩ := i
  rw [plan]
  cases task with
  | none =>
    have hstatus : (if help then 0 else 2) ≤ 2 := by cases help <;> decide
    exact undertakes_explained hstatus _
  | some task =>
    cases help with
    | true => exact undertakes_explained (Nat.zero_le 2) _
    | false =>
      simp only [if_neg Bool.false_ne_true]
      cases task with
      | run o code => exact undertakes_run hlog
      | check o code => exact undertakes_check hlog
      | demo o name => exact undertakes_demo verbose

theorem exitCode_conclude (t : Trial) (h : Host) (e : Evaluation) :
    (t.conclude h e).exitCode ≤ 2 := by
  rw [Trial.conclude]
  split
  · exact Nat.le_succ 1
  · cases e.ending with
    | finished => exact Nat.zero_le 2
    | failed cause => cases cause <;> exact Nat.le_succ 1
    | broken fault => exact Nat.le_succ 1

/-! ## Demos one after the other -/

section

variable {demo : Demo} {demos rest : List Demo} {it : Interpreter} {input : Input}
  {output : Output} {log : List Log.Event} {e : Evaluation}

theorem runDemos_of_none (he : it.evaluate traced fuel demo.source input output = none) :
    runDemos h traced fuel (demo :: rest) it input output log = none := by
  simp only [runDemos, he]

theorem runDemos_of_finished (he : it.evaluate traced fuel demo.source input output = some e)
    (hending : e.ending = .finished) :
    runDemos h traced fuel (demo :: rest) it input output log =
      runDemos h traced fuel rest e.interpreter e.input e.output
        (log ++ e.notes.toList.map .noted) := by
  simp only [runDemos, he, hending]

/-- A demo that fails is the last one. It is never abandoned. -/
theorem runDemos_of_failed (he : it.evaluate traced fuel demo.source input output = some e)
    (hending : e.ending ≠ .finished) :
    ∃ cause, e.ending = .failed cause ∧
      runDemos h traced fuel (demo :: rest) it input output log =
        some (.exited 1 ⟨e.input, e.output,
          cause.report (some h.program) demo.source h.errorLabel,
          log ++ e.notes.toList.map .noted⟩) := by
  cases hcause : e.ending with
  | finished => exact absurd hcause hending
  | failed cause =>
    refine ⟨cause, rfl, ?_⟩
    simp only [runDemos, he, hcause]
  | broken fault => exact absurd hcause (Interpreter.unbroken_of_execute he fault)

theorem runDemos_mono (hle : fuel ≤ more)
    (hdemos : runDemos h traced fuel demos it input output log = some outcome) :
    runDemos h traced more demos it input output log = some outcome := by
  induction demos generalizing it input output log with
  | nil => exact hdemos
  | cons demo rest ih =>
    cases he : it.evaluate traced fuel demo.source input output with
    | none =>
      rw [runDemos_of_none he] at hdemos
      cases hdemos
    | some e =>
      have hmore : it.evaluate traced more demo.source input output = some e :=
        Interpreter.execute_mono hle he
      by_cases hending : e.ending = .finished
      · rw [runDemos_of_finished he hending] at hdemos
        rw [runDemos_of_finished hmore hending]
        exact ih hdemos
      · obtain ⟨cause, hcause, hfailed⟩ := runDemos_of_failed he hending
        obtain ⟨cause', hcause', hfailed'⟩ := runDemos_of_failed hmore hending
        cases hcause.symm.trans hcause'
        rwa [hfailed', ← hfailed]

theorem exitCode_runDemos
    (hdemos : runDemos h traced fuel demos it input output log = some outcome) :
    outcome.exitCode ≤ 2 := by
  induction demos generalizing it input output log with
  | nil => cases hdemos; exact Nat.zero_le 2
  | cons demo rest ih =>
    cases he : it.evaluate traced fuel demo.source input output with
    | none =>
      rw [runDemos_of_none he] at hdemos
      cases hdemos
    | some e =>
      by_cases hending : e.ending = .finished
      · rw [runDemos_of_finished he hending] at hdemos
        exact ih hdemos
      · obtain ⟨cause, _, hfailed⟩ := runDemos_of_failed he hending
        rw [hfailed] at hdemos
        cases hdemos
        exact Nat.le_succ 1

/-- Among demos that come to no end there is one that comes to none. The interpreter works on each
as a new one would. -/
theorem runDemos_endless {capacity : Nat} {policy : Policy}
    (hfits : it.Fits capacity policy none)
    (hnone : ∀ fuel, runDemos h traced fuel demos it input output log = none) :
    ∃ demo ∈ demos, ∃ input output,
      (Interpreter.new capacity policy).Endless .live demo.source input output := by
  induction demos generalizing it input output log with
  | nil => cases hnone 0
  | cons demo rest ih =>
    by_cases hendless : ∀ fuel, it.evaluate traced fuel demo.source input output = none
    · have hreset : it.reset = (Interpreter.new capacity policy).reset :=
        hfits.reset_eq.trans Interpreter.fits_new.reset_eq.symm
      refine ⟨demo, List.mem_cons_self .., input, output, fun traced' fuel => ?_⟩
      rw [← Interpreter.execute_congr hreset]
      exact Interpreter.endless_of_execute hendless traced' fuel
    · -- This demo ends with some fuel, and if the rest did so too, both would with the larger one.
      obtain ⟨fuel, hfuel⟩ := Classical.not_forall.1 hendless
      obtain ⟨e, he⟩ := Option.ne_none_iff_exists'.1 hfuel
      have hrest : ∀ more, runDemos h traced more rest e.interpreter e.input e.output
          (log ++ e.notes.toList.map .noted) = none := by
        intro more
        refine Option.eq_none_iff_forall_ne_some.2 fun outcome hout => ?_
        have hboth : runDemos h traced (max fuel more) (demo :: rest) it input output log =
            none := hnone _
        have hmore : it.evaluate traced (max fuel more) demo.source input output = some e :=
          Interpreter.execute_mono (Nat.le_max_left ..) he
        by_cases hending : e.ending = .finished
        · rw [runDemos_of_finished hmore hending,
            runDemos_mono (Nat.le_max_right ..) hout] at hboth
          cases hboth
        · obtain ⟨cause, _, hfailed⟩ := runDemos_of_failed hmore hending
          cases hfailed.symm.trans hboth
      obtain ⟨demo', hmem, hdemo'⟩ :=
        ih (hfits.execute (Interpreter.executes_of_execute he)) hrest
      exact ⟨demo', List.mem_cons_of_mem _ hmem, hdemo'⟩

end

/-! ## Every invocation -/

theorem carryOut_mono (hle : fuel ≤ more) (hout : p.carryOut h traced fuel = some outcome) :
    p.carryOut h traced more = some outcome := by
  cases p with
  | settled _ => exact hout
  | text t =>
    rw [Plan.carryOut] at hout ⊢
    obtain ⟨e, he, hconclude⟩ := Option.map_eq_some_iff.1 hout
    exact Option.map_eq_some_iff.2 ⟨e, Interpreter.execute_mono hle he, hconclude⟩
  | demos it chosen => exact runDemos_mono hle hout

theorem Undertakes.ends (hp : Undertakes h i p) (hout : p.carryOut h traced fuel = some outcome) :
    Ends h i outcome := by
  cases hp with
  | settled hends =>
    cases hout
    exact hends
  | text _ _ _ =>
    rw [Plan.carryOut] at hout
    obtain ⟨e, _, rfl⟩ := Option.map_eq_some_iff.1 hout
    exact .orderly (exitCode_conclude _ h e)
  | demos _ => exact .orderly (exitCode_runDemos hout)

theorem Undertakes.keepsRunning (hp : Undertakes h i p)
    (hnone : ∀ fuel, p.carryOut h traced fuel = none) : KeepsRunning h i := by
  cases hp with
  | settled _ => cases hnone 0
  | text hi hsource hfile =>
    subst hi
    simp only [Plan.carryOut, supply_trial, Option.map_eq_none_iff] at hnone
    exact .run hsource hfile (Interpreter.endless_of_execute hnone)
  | demos hi =>
    subst hi
    obtain ⟨demo, hdemo, input, output, hendless⟩ := runDemos_endless Interpreter.fits_new hnone
    exact .demo hdemo hendless

theorem Ends.filtered (hends : Ends h i outcome) (s : Log.Selection) :
    Ends h i (outcome.filtered s) := by
  cases hends with
  | orderly hcode => cases outcome <;> exact .orderly hcode
  | abandoned habandons => exact .abandoned habandons

theorem serve_of_error {text : String} (hlog : h.log.selection i.verbose = .error text)
    (fuel : Nat) : serve h fuel i = some (.abandoned (.logging text) h.output) := by
  simp only [serve, hlog]

/-- More fuel does not change the outcome of an invocation. -/
theorem serve_mono (hle : fuel ≤ more) (hout : serve h fuel i = some outcome) :
    serve h more i = some outcome := by
  cases hlog : h.log.selection i.verbose with
  | error text =>
    rw [serve_of_error hlog] at hout ⊢
    exact hout
  | ok s =>
    rw [serve_of_ok hlog] at hout ⊢
    obtain ⟨outcome', hout', hfiltered⟩ := Option.map_eq_some_iff.1 hout
    exact Option.map_eq_some_iff.2 ⟨outcome', carryOut_mono hle hout', hfiltered⟩

theorem ends_of_serve (hout : serve h fuel i = some outcome) : Ends h i outcome := by
  cases hlog : h.log.selection i.verbose with
  | error text =>
    rw [serve_of_error hlog] at hout
    cases hout
    exact .abandoned (.logging hlog)
  | ok s =>
    rw [serve_of_ok hlog] at hout
    obtain ⟨outcome', hout', rfl⟩ := Option.map_eq_some_iff.1 hout
    exact ((undertakes_plan hlog).ends hout').filtered s

theorem keepsRunning_of_serve (hnone : ∀ fuel, serve h fuel i = none) : KeepsRunning h i := by
  cases hlog : h.log.selection i.verbose with
  | error text => cases (hnone 0).symm.trans (serve_of_error hlog 0)
  | ok s =>
    simp only [serve_of_ok hlog, Option.map_eq_none_iff] at hnone
    exact (undertakes_plan hlog).keepsRunning hnone

theorem serve_of_abandons {fault : Fault} {output : Output} (habandons : Abandons h i fault output)
    (fuel : Nat) : serve h fuel i = some (.abandoned fault output) := by
  cases habandons with
  | logging hlog => exact serve_of_error hlog fuel
  | @tape verbose o code source file s hlog hhelp hsource hhandler hfile hlarge =>
    have hplan : plan h ⟨false, verbose, some (.run o code)⟩ =
        .settled (.abandoned .tapeTooLarge h.output) := by
      show planRun h o code = _
      rw [planRun_of_text hhelp hsource, prepare_of_large hfile hhandler hlarge]
    rw [serve_of_ok hlog, hplan]
    rfl
  | @printing verbose o code source refusal program jumps output s hlog hhelp hsource hread
      hrefusal =>
    have hcheck : check h o code = .abandoned (.printing refusal) output := by
      simp only [check, hhelp, if_neg Bool.false_ne_true, requests_text_iff.1 hsource,
        checkSource, Interpreter.check, hread, hrefusal]
    have hplan : plan h ⟨false, verbose, some (.check o code)⟩ = .settled (check h o code) := rfl
    rw [serve_of_ok hlog, hplan, hcheck]
    rfl

/-- Whatever is asked of a process, and whatever it finds and the libraries answer, it ends with an
exit code of at most 2, or keeps running a text that comes to no end, or is abandoned, and that in
just three cases. Only its standard error has to take everything. The evaluation of a text, of which
a process could hide how it was abandoned, never is. -/
theorem serve_ends (h : Host) (i : Invocation) :
    ((∃ fuel outcome, (∀ more, fuel ≤ more → serve h more i = some outcome) ∧ Ends h i outcome) ∨
      (∀ fuel, serve h fuel i = none) ∧ KeepsRunning h i) ∧
    (∀ fault output, Abandons h i fault output →
      ∀ fuel, serve h fuel i = some (.abandoned fault output)) ∧
    ∀ it mode traced fuel source input output e,
      Interpreter.execute mode traced fuel source input output it = some e →
      ∀ fault, e.ending ≠ .broken fault := by
  refine ⟨?_, fun fault output habandons => serve_of_abandons habandons,
    fun it mode traced fuel source input output e he => Interpreter.unbroken_of_execute he⟩
  by_cases hnone : ∀ fuel, serve h fuel i = none
  · exact .inr ⟨hnone, keepsRunning_of_serve hnone⟩
  · obtain ⟨fuel, hfuel⟩ := Classical.not_forall.1 hnone
    obtain ⟨outcome, hout⟩ := Option.ne_none_iff_exists'.1 hfuel
    exact .inl ⟨fuel, outcome, fun more hle => serve_mono hle hout, ends_of_serve hout⟩

/-- One cell more than can be asked for, an approval that is refused, and a log that cannot be set
up because its filter would have to be cut inside of a letter of two bytes. -/
theorem serve_ends_abandoned :
    let h : Host :=
      { program := "bf"
        lookup := fun _ => none
        read := fun _ => .error "No such file or directory (os error 2)"
        input := []
        output := {}
        terminal := false
        paint := id
        log := ⟨.error .useless, fun _ => ⟨fun _ => false⟩⟩
        configHome := none
        handler := none
        clock := fun _ => none }
    let full : Output := { limit := some 0, refusal := "No space left on device (os error 28)" }
    let cut := "end byte index 2 is not a char boundary; it is inside 'é' (bytes 1..3 of string)"
    let log : Log.Library := ⟨.error (.fatal cut), fun _ => ⟨fun _ => false⟩⟩
    let o : Options := { capacity := some 9223372036854775808 }
    let runs : Invocation := ⟨false, false, some (.run o ["+"])⟩
    let checks : Invocation := ⟨false, false, some (.check {} ["+"])⟩
    (Abandons h runs .tapeTooLarge {} ∧
      serve h 0 runs = some (.abandoned .tapeTooLarge {})) ∧
    (Abandons { h with output := full } checks (.printing full.refusal) full ∧
      serve { h with output := full } 0 checks =
        some (.abandoned (.printing full.refusal) full)) ∧
    Abandons { h with log := log } checks (.logging cut) {} ∧
      serve { h with log := log } 0 checks = some (.abandoned (.logging cut) {}) := by
  intro h full cut log o runs checks
  refine ⟨?_, ?_, ?_⟩
  · have hfile : Configures h o .empty := .nowhere (.nowhere rfl rfl)
    have habandons : Abandons h runs .tapeTooLarge {} :=
      .tape rfl rfl .words rfl hfile (by decide)
    exact ⟨habandons, (serve_ends h runs).2.1 _ _ habandons 0⟩
  · have hrefusal : ∀ text, full.writeLine text = (full, some full.refusal) := by
      intro text
      simp [full, Output.writeLine, Output.write, Output.brink, Output.append, Output.lapse]
    have habandons : Abandons { h with output := full } checks (.printing full.refusal) full :=
      .printing rfl rfl .words rfl (hrefusal _)
    exact ⟨habandons, (serve_ends _ checks).2.1 _ _ habandons 0⟩
  · have habandons : Abandons { h with log := log } checks (.logging cut) {} := .logging rfl
    exact ⟨habandons, (serve_ends _ checks).2.1 _ _ habandons 0⟩

end Command

end TapeMachine
