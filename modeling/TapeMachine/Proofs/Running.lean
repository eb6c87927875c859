import TapeMachine.Command.Serve
import TapeMachine.Proofs.Endings

/-!
# TapeMachine.Proofs.Running

What the command that runs a text leaves behind, from its options to its exit status.

* `Requests`    — which program text the options and words ask for, if they ask for one. There is
  always exactly one answer, and `requests_iff` says that the command finds it.
* `Configures`  — what the settings file gives, by its text. Again there is one answer,
  `configures_iff`.
* `run_of_text` — without a time limit, a text is run by a fresh interpreter with the settings of
  all layers.
* `Reports`     — the status and the message that go with an ending.
* `run_reports` — the command from end to end.
-/

namespace TapeMachine

namespace Command

/-! ## Which text is asked for -/

inductive Request where
  | misused
  | unreadable
  | text (source : String)

/-- What the path of a program file and the words of code ask for. -/
inductive Requests (read : String → Except String ByteArray) :
    Option String → List String → Request → Prop where
  | neither : Requests read none [] .misused
  | both {path word : String} {words : List String} :
      Requests read (some path) (word :: words) .misused
  | failed {path error : String} (h : read path = .error error) :
      Requests read (some path) [] .unreadable
  | garbled {path : String} {bytes : ByteArray} (h : read path = .ok bytes)
      (hbytes : ∀ source : String, source.toUTF8 ≠ bytes) :
      Requests read (some path) [] .unreadable
  | file {path source : String} (h : read path = .ok source.toUTF8) :
      Requests read (some path) [] (.text source)
  | words {word : String} {words : List String} :
      Requests read none (word :: words) (.text (String.join (word :: words)))

def NoSource.request : NoSource → Request
  | missing => .misused
  | conflict => .misused
  | unreadable _ _ => .unreadable

/-- The request that has been answered with a text or with the reason why there is none. -/
def answered : Except NoSource String → Request
  | .error cause => cause.request
  | .ok source => .text source

variable {read : String → Except String ByteArray} {path source : String} {file : Option String}
  {code : List String} {request : Request}

theorem fromUTF8?_eq_some_iff {bytes : ByteArray} :
    String.fromUTF8? bytes = some source ↔ source.toUTF8 = bytes := by
  rw [String.fromUTF8?]
  constructor
  · intro h
    split at h <;> cases h
    rfl
  · rintro rfl
    rw [String.toUTF8_eq_toByteArray, dif_pos source.isValidUTF8]
    rfl

theorem readText_eq_ok_iff : readText read path = .ok source ↔ read path = .ok source.toUTF8 := by
  rw [readText]
  cases read path with
  | error error => simp
  | ok bytes =>
    rw [Except.ok.injEq, @eq_comm _ bytes, ← fromUTF8?_eq_some_iff]
    cases hbytes : String.fromUTF8? bytes <;> simp [hbytes]

theorem requests_answered (read : String → Except String ByteArray) (file : Option String)
    (code : List String) : Requests read file code (answered (loadSource read file code)) := by
  cases file with
  | none =>
    cases code with
    | nil => exact .neither
    | cons word words => exact .words
  | some path =>
    cases code with
    | cons word words => exact .both
    | nil =>
      rw [loadSource]
      cases htext : readText read path with
      | ok source => exact .file (readText_eq_ok_iff.1 htext)
      | error error =>
        cases hread : read path with
        | error error' => exact .failed hread
        | ok bytes =>
          refine .garbled hread fun source hsource => ?_
          rw [readText_eq_ok_iff.2 (hsource ▸ hread)] at htext
          cases htext

theorem Requests.unique {request' : Request} (h : Requests read file code request)
    (h' : Requests read file code request') : request = request' := by
  cases h with
  | neither => cases h'; rfl
  | both => cases h'; rfl
  | words => cases h'; rfl
  | failed h =>
    cases h' with
    | failed _ => rfl
    | garbled _ _ => rfl
    | file h' => rw [h] at h'; cases h'
  | garbled h hbytes =>
    cases h' with
    | failed _ => rfl
    | garbled _ _ => rfl
    | file h' => rw [h] at h'; cases h'; exact absurd rfl (hbytes _)
  | @file _ source h =>
    cases h' with
    | failed h' => rw [h] at h'; cases h'
    | garbled h' hbytes => rw [h] at h'; cases h'; exact absurd rfl (hbytes _)
    | @file _ source' h' =>
      rw [h] at h'
      have hsource : source.toUTF8 = source'.toUTF8 := Except.ok.inj h'
      rw [String.toByteArray_inj.1 hsource]

theorem requests_iff : Requests read file code request ↔
    request = answered (loadSource read file code) := by
  constructor
  · exact fun h => h.unique (requests_answered read file code)
  · rintro rfl
    exact requests_answered read file code

theorem requests_text_iff :
    Requests read file code (.text source) ↔ loadSource read file code = .ok source := by
  rw [requests_iff]
  cases loadSource read file code with
  | error cause => cases cause <;> simp [answered, NoSource.request]
  | ok source' => simp [answered, eq_comm]

theorem Requests.exists_error (h : Requests read file code request)
    (htext : ∀ source, request ≠ .text source) :
    ∃ cause, loadSource read file code = .error cause ∧ cause.request = request := by
  have hrequest := requests_iff.1 h
  cases hload : loadSource read file code with
  | error cause =>
    rw [hload] at hrequest
    exact ⟨cause, rfl, hrequest.symm⟩
  | ok source =>
    rw [hload] at hrequest
    exact absurd hrequest (htext source)

/-! ## Settings -/

/-- Where the settings file is: at the path that is asked for, or else in the directory for
settings. -/
inductive Locates (h : Host) (o : Options) : Option String → Prop where
  | asked {path : String} (hpath : o.config = some path) : Locates h o (some path)
  | home {directory : String} (hpath : o.config = none) (hhome : h.configHome = some directory)
      (hname : ¬(directory = "" ∨ directory.endsWith "/")) :
      Locates h o (some (directory ++ "/" ++ "bf.toml"))
  | slashed {directory : String} (hpath : o.config = none) (hhome : h.configHome = some directory)
      (hname : directory = "" ∨ directory.endsWith "/") :
      Locates h o (some (directory ++ "bf.toml"))
  | nowhere (hpath : o.config = none) (hhome : h.configHome = none) : Locates h o none

/-- What the settings file gives. A file that cannot be read as a text gives nothing. -/
inductive Configures (h : Host) (o : Options) : Layer → Prop where
  | text {path text : String} (hpath : Locates h o (some path))
      (hread : h.read path = .ok text.toUTF8) : Configures h o (Settings.File.read text).1
  | failed {path error : String} (hpath : Locates h o (some path))
      (hread : h.read path = .error error) : Configures h o .empty
  | garbled {path : String} {bytes : ByteArray} (hpath : Locates h o (some path))
      (hread : h.read path = .ok bytes) (hbytes : ∀ text : String, text.toUTF8 ≠ bytes) :
      Configures h o .empty
  | nowhere (hpath : Locates h o none) : Configures h o .empty

variable {h : Host} {o : Options} {s : Log.Selection} {fuel : Nat} {outcome : Outcome}
  {file' : Layer}

theorem locates_iff {path? : Option String} : Locates h o path? ↔ path? = settingsPath? h o := by
  rw [settingsPath?]
  constructor
  · intro hpath
    cases hpath with
    | asked hpath => rw [hpath]; rfl
    | home hpath hhome hname =>
      rw [hpath, hhome]
      exact congrArg some (if_neg hname).symm
    | slashed hpath hhome hname =>
      rw [hpath, hhome]
      exact congrArg some (if_pos hname).symm
    | nowhere hpath hhome => rw [hpath, hhome]; rfl
  · rintro rfl
    cases hpath : o.config with
    | some path => exact .asked hpath
    | none =>
      cases hhome : h.configHome with
      | some directory =>
        show Locates h o (some (inDirectory directory "bf.toml"))
        rw [inDirectory]
        split
        · exact .slashed hpath hhome ‹_›
        · exact .home hpath hhome ‹_›
      | none => exact .nowhere hpath hhome

section

variable {path : String}

theorem fileLayer_of_none (hpath : settingsPath? h o = none) : (fileLayer h o).1 = .empty := by
  simp only [fileLayer, hpath]

theorem fileLayer_of_ok {text : String} (hpath : settingsPath? h o = some path)
    (htext : readText h.read path = .ok text) :
    (fileLayer h o).1 = (Settings.File.read text).1 := by
  simp only [fileLayer, hpath, htext]

theorem fileLayer_of_error {error : String} (hpath : settingsPath? h o = some path)
    (htext : readText h.read path = .error error) : (fileLayer h o).1 = .empty := by
  simp only [fileLayer, hpath, htext]

end

theorem configures_fileLayer (h : Host) (o : Options) : Configures h o (fileLayer h o).1 := by
  have hlocates : Locates h o (settingsPath? h o) := locates_iff.2 rfl
  cases hpath : settingsPath? h o with
  | none =>
    rw [hpath] at hlocates
    rw [fileLayer_of_none hpath]
    exact .nowhere hlocates
  | some path =>
    rw [hpath] at hlocates
    cases htext : readText h.read path with
    | ok text =>
      rw [fileLayer_of_ok hpath htext]
      exact .text hlocates (readText_eq_ok_iff.1 htext)
    | error error =>
      rw [fileLayer_of_error hpath htext]
      cases hread : h.read path with
      | error error' => exact .failed hlocates hread
      | ok bytes =>
        refine .garbled hlocates hread fun text hbytes => ?_
        rw [readText_eq_ok_iff.2 (hbytes ▸ hread)] at htext
        cases htext

theorem configures_iff : Configures h o file' ↔ file' = (fileLayer h o).1 := by
  constructor
  · intro hfile
    cases hfile with
    | text hpath hread =>
      exact (fileLayer_of_ok (locates_iff.1 hpath).symm (readText_eq_ok_iff.2 hread)).symm
    | @failed path error hpath hread =>
      have htext : readText h.read path = .error error := by rw [readText, hread]
      exact (fileLayer_of_error (locates_iff.1 hpath).symm htext).symm
    | @garbled path bytes hpath hread hbytes =>
      cases htext : readText h.read path with
      | ok text =>
        have hsame := (readText_eq_ok_iff.1 htext).symm.trans hread
        exact absurd (Except.ok.inj hsame) (hbytes text)
      | error error => exact (fileLayer_of_error (locates_iff.1 hpath).symm htext).symm
    | nowhere hpath => exact (fileLayer_of_none (locates_iff.1 hpath).symm).symm
  · rintro rfl
    exact configures_fileLayer h o

/-- The settings by what flags, environment and settings file give. -/
def settingsBy (h : Host) (o : Options) (file : Layer) : Settings :=
  Settings.resolve ⟨o.policy, o.capacity, o.timeoutMs, o.maxSteps⟩ (Layer.ofVariables h.lookup) file

theorem settle_fst {file : Layer} (hfile : Configures h o file) :
    (settle h o).1 = settingsBy h o file := by
  rw [configures_iff.1 hfile]
  rfl

/-! ## Preparing a text -/

/-- Whether the time may run out before the step limit is reached. -/
def timed (h : Host) (S : Settings) : Bool := timeFirst (S.timeoutMs.bind h.clock) S.maxSteps

/-- The number of steps that a run may make, by its step limit or by its time. -/
def allowance (h : Host) (S : Settings) : Option Nat :=
  if timed h S then S.timeoutMs.bind h.clock else S.maxSteps

/-- The interpreter that a run begins with. -/
def runner (h : Host) (S : Settings) : Interpreter :=
  .fresh S.capacity S.policy (some (allowance h S))

def trial (h : Host) (o : Options) (S : Settings) (source : String) : Trial :=
  ⟨S, (settle h o).2, timed h S, runner h S, o.mode, source⟩

theorem allocate?_eq (capacity : Nat) (policy : Policy) :
    Tape.allocate? capacity policy =
      if capacity ≤ Tape.maxCapacity then some (Tape.new capacity policy) else none := by
  have hone : 1 ≤ Tape.maxCapacity := by decide
  simp only [Tape.allocate?, Nat.max_le, hone, and_true]

theorem prepare_of_handler {error : String} (hhandler : h.handler = some error)
    (source : String) :
    prepare h o source = .settled (withoutHandler h error (settle h o).2) := by
  simp only [prepare, hhandler]

section

variable {file : Layer} (hfile : Configures h o file) (hhandler : h.handler = none)

include hfile hhandler

theorem prepare_eq (hcapacity : (settingsBy h o file).capacity ≤ Tape.maxCapacity)
    (source : String) :
    prepare h o source = .text (trial h o (settingsBy h o file) source) := by
  simp only [prepare, settle_fst hfile, hhandler, allocate?_eq, if_pos hcapacity]
  rfl

/-- A text is refused a tape that is too large, whatever the text. -/
theorem prepare_of_large (hcapacity : Tape.maxCapacity < (settingsBy h o file).capacity)
    (source : String) :
    prepare h o source = .settled (.abandoned .tapeTooLarge h.output) := by
  simp only [prepare, settle_fst hfile, hhandler, allocate?_eq, if_neg (Nat.not_le.2 hcapacity)]

end

/-! ## The command from end to end -/

theorem mode_trial (h : Host) (o : Options) (S : Settings) (source : String) :
    (trial h o S source).mode = if o.debug then .table else .live := rfl

theorem supply_trial (h : Host) (o : Options) (S : Settings) (source : String) (input : Input) :
    (trial h o S source).supply input = if o.debug then [] else input := by
  rw [Trial.supply, mode_trial]
  cases o.debug <;> rfl

theorem unread_trial (h : Host) (o : Options) (S : Settings) (source : String) (e : Evaluation) :
    (trial h o S source).unread h e = if o.debug then h.input else e.input := by
  rw [Trial.unread, mode_trial]
  cases o.debug <;> rfl

theorem cancel_not_mem_supply {input : Input} (hinput : Input.Event.cancel ∉ input) :
    Input.Event.cancel ∉ if o.debug then [] else input := by
  split
  · exact List.not_mem_nil
  · exact hinput

/-- The exit status and the message on standard error that go with the end of an evaluation. -/
inductive Reports (h : Host) (source : String) : Ending → Nat → String → Prop where
  | finished : Reports h source .finished 0 ""
  | failed {cause : Failure} (hcause : cause ≠ .canceled) :
      Reports h source (.failed cause) 1
        (cause.report (some h.program) source (Report.errorLabel h.terminal h.paint))

theorem Trial.reports_verdict (t : Trial) {ending : Ending}
    (hbroken : ∀ fault, ending ≠ .broken fault) (hcanceled : ending ≠ .failed .canceled) :
    Reports h t.source ending (t.verdict h ending).1 (t.verdict h ending).2 := by
  cases ending with
  | finished => exact .finished
  | failed cause =>
    have hcause : cause ≠ .canceled := fun hcause => hcanceled (congrArg Ending.failed hcause)
    have hverdict : t.verdict h (.failed cause) =
        (1, cause.report (some h.program) t.source h.errorLabel) := by
      cases cause with
      | canceled => exact absurd rfl hcause
      | _ => rfl
    rw [hverdict]
    exact .failed hcause
  | broken fault => exact absurd rfl (hbroken fault)

theorem Trial.conclude_eq (t : Trial) (htimed : t.timed = false) (h : Host) (e : Evaluation) :
    t.conclude h e =
      .exited (t.verdict h e.ending).1
        ⟨t.unread h e, e.output, (t.verdict h e.ending).2,
          t.events ++ e.notes.toList.map .noted⟩ := by
  have hexpired : t.expired e.ending = false := by
    cases e.ending with
    | failed cause => cases cause <;> first | exact htimed | rfl
    | _ => rfl
  rw [conclude, hexpired, if_neg Bool.false_ne_true]

section

variable {S : Settings} (htimeout : S.timeoutMs = none)

include htimeout

theorem timed_eq_false (h : Host) : timed h S = false := by
  rw [timed, htimeout]
  rfl

theorem runner_eq (h : Host) :
    runner h S = .fresh S.capacity S.policy (some S.maxSteps) := by
  rw [runner, allowance, timed_eq_false htimeout, if_neg Bool.false_ne_true]

end

section

variable (hhelp : o.help = false)

include hhelp

theorem planRun_of_misused (hrequest : Requests h.read o.file code .misused) :
    ∃ errors, planRun h o code = .settled (explained h 2 errors) := by
  obtain ⟨cause, hload, hcause⟩ := hrequest.exists_error nofun
  rw [planRun, hhelp, if_neg Bool.false_ne_true, hload]
  cases cause with
  | missing => exact ⟨_, rfl⟩
  | conflict => exact ⟨_, rfl⟩
  | unreadable path error => cases hcause

theorem planRun_of_unreadable (hrequest : Requests h.read o.file code .unreadable) :
    ∃ errors, planRun h o code = .settled (explained h 1 errors) := by
  obtain ⟨cause, hload, hcause⟩ := hrequest.exists_error nofun
  rw [planRun, hhelp, if_neg Bool.false_ne_true, hload]
  cases cause with
  | missing => cases hcause
  | conflict => cases hcause
  | unreadable path error => exact ⟨_, rfl⟩

theorem planRun_of_text (hrequest : Requests h.read o.file code (.text source)) :
    planRun h o code = prepare h o source := by
  rw [planRun, hhelp, if_neg Bool.false_ne_true, requests_text_iff.1 hrequest]

end

/-- What comes of the evaluation of a text without a time limit. -/
def outcomeOf (h : Host) (o : Options) (S : Settings) (source : String) (e : Evaluation) :
    Outcome :=
  let verdict := (trial h o S source).verdict h e.ending
  .exited verdict.1
    ⟨if o.debug then h.input else e.input, e.output, verdict.2,
      (settle h o).2 ++ e.notes.toList.map .noted⟩

/-- Without a time limit a text is run by a fresh interpreter with the settings of all layers. -/
theorem run_of_text {file : Layer} (hhelp : o.help = false) (hhandler : h.handler = none)
    (hfile : Configures h o file) (htimeout : (settingsBy h o file).timeoutMs = none)
    (hcapacity : (settingsBy h o file).capacity ≤ Tape.maxCapacity)
    (hrequest : Requests h.read o.file code (.text source)) (s : Log.Selection) (fuel : Nat) :
    let S := settingsBy h o file
    run h s fuel o code =
      ((Interpreter.fresh S.capacity S.policy (some S.maxSteps)).execute
        (if o.debug then .table else .live) s.admitsSteps fuel source
        (if o.debug then [] else h.input) h.output).map (outcomeOf h o S source) := by
  intro S
  have hplan : planRun h o code = .text (trial h o S source) := by
    rw [planRun_of_text hhelp hrequest, prepare_eq hfile hhandler hcapacity]
  have hconclude : (trial h o S source).conclude h = outcomeOf h o S source := by
    funext e
    have htimed : (trial h o S source).timed = false := timed_eq_false htimeout h
    rw [Trial.conclude_eq _ htimed, unread_trial]
    rfl
  rw [run, hplan, Plan.carryOut, supply_trial, hconclude, ← runner_eq htimeout h]
  rfl

theorem serve_of_ok {i : Invocation} (hlog : h.log.selection i.verbose = .ok s) (fuel : Nat) :
    serve h fuel i =
      ((plan h i).carryOut h s.admitsSteps fuel).map (·.filtered s) := by
  simp only [serve, hlog]

/-- The command that runs a text, with no time limit from anywhere, where the handler of interrupts
can be installed, the machine can provide the tape and the output takes everything. Either the words
ask for no text, and nothing is written; or the outcome is that of the evaluation of the text they
ask for, on a fresh interpreter with the settings of all layers: what it writes and nothing else,
and a report of how it ended. If the evaluation does not end, neither does the command. Which events
are logged has no part in this, and the whole process only selects them. -/
theorem run_reports {file : Layer} (hhelp : o.help = false) (hhandler : h.handler = none)
    (hfile : Configures h o file) (hflags : o.timeoutMs = none)
    (hvariables : (Layer.ofVariables h.lookup).timeoutMs = none) (hnolimit : file.timeoutMs = none)
    (hcapacity : (settingsBy h o file).capacity ≤ Tape.maxCapacity)
    (hinput : Input.Event.cancel ∉ h.input) (houtput : h.output.Flawless) (s : Log.Selection)
    (code : List String) :
    (∃ request, Requests h.read o.file code request ∧
      ∀ request', Requests h.read o.file code request' → request' = request) ∧
    (∀ file', Configures h o file' → file' = file) ∧
    (Requests h.read o.file code .misused → ∀ fuel, ∃ errors,
      run h s fuel o code = some (.exited 2 ⟨h.input, h.output, errors, []⟩)) ∧
    (Requests h.read o.file code .unreadable → ∀ fuel, ∃ errors,
      run h s fuel o code = some (.exited 1 ⟨h.input, h.output, errors, []⟩)) ∧
    (∀ source, Requests h.read o.file code (.text source) →
      let S := Settings.resolve ⟨o.policy, o.capacity, o.timeoutMs, o.maxSteps⟩
        (Layer.ofVariables h.lookup) file
      let it := Interpreter.fresh S.capacity S.policy (some S.maxSteps)
      let mode := if o.debug then .table else .live
      let input := if o.debug then [] else h.input
      (∀ fuel outcome, run h s fuel o code = some outcome →
        ∃ ending it' input' output' status errors log,
          it.EvaluatesTo mode false source input h.output ending it' input' output' ∧
          Reports h source ending status errors ∧
          outcome =
            .exited status ⟨if o.debug then h.input else input', output', errors, log⟩) ∧
      ∀ traced ending it' input' output',
        it.EvaluatesTo mode traced source input h.output ending it' input' output' →
        ∃ fuel status errors log, Reports h source ending status errors ∧
          ∀ more, fuel ≤ more → run h s more o code =
            some (.exited status
              ⟨if o.debug then h.input else input', output', errors, log⟩)) ∧
    ∀ verbose, h.log.selection verbose = .ok s → ∀ fuel,
      serve h fuel ⟨false, verbose, some (.run o code)⟩ =
        (run h s fuel o code).map (·.filtered s) := by
  refine ⟨⟨_, requests_answered _ _ _, fun _ hr => requests_iff.1 hr⟩, fun file' hfile' =>
    (configures_iff.1 hfile').trans (configures_iff.1 hfile).symm, fun hr fuel => ?_,
    fun hr fuel => ?_, ?_, fun verbose hlog fuel => serve_of_ok hlog fuel⟩
  · obtain ⟨errors, hplan⟩ := planRun_of_misused hhelp hr
    exact ⟨errors, by rw [run, hplan]; rfl⟩
  · obtain ⟨errors, hplan⟩ := planRun_of_unreadable hhelp hr
    exact ⟨errors, by rw [run, hplan]; rfl⟩
  · intro source hr S it mode input
    have htimeout : S.timeoutMs = none := by
      show (o.timeoutMs <|> _ <|> file.timeoutMs) = none
      rw [hflags, hvariables, hnolimit]
      rfl
    have hrun : ∀ fuel, run h s fuel o code =
        (it.execute mode s.admitsSteps fuel source input h.output).map (outcomeOf h o S source) :=
      run_of_text hhelp hhandler hfile htimeout hcapacity hr s
    have hreports : ∀ fuel e,
        it.execute mode s.admitsSteps fuel source input h.output = some e →
        let verdict := (trial h o S source).verdict h e.ending
        Reports h source e.ending verdict.1 verdict.2 := fun fuel e he =>
      (trial h o S source).reports_verdict (Interpreter.unbroken_of_execute he)
        (Interpreter.uncanceled_of_execute (cancel_not_mem_supply hinput) houtput he)
    constructor
    · intro fuel outcome hout
      rw [hrun] at hout
      obtain ⟨e, he, rfl⟩ := Option.map_eq_some_iff.1 hout
      have heval := Interpreter.EvaluatesTo.retraced ⟨fuel, e.notes, he⟩ false
      exact ⟨_, _, _, _, _, _, _, heval, hreports fuel e he, rfl⟩
    · intro traced ending it' input' output' heval
      obtain ⟨fuel, notes, he⟩ := heval.retraced s.admitsSteps
      refine ⟨fuel, _, _, (settle h o).2 ++ notes.toList.map .noted, hreports fuel _ he,
        fun more hle => ?_⟩
      rw [hrun, Interpreter.execute_mono hle he]
      rfl

/-- `,+.>` in two words, on the single strict cell that a settings file asks for: the byte is
written before the move is reported, to a terminal. With a flag that allows three steps the move is
never made. -/
theorem run_reports_overrun :
    let text := "[interpreter]\npolicy = \"strict\"\ncapacity = 1\n"
    let h : Host :=
      { program := "bf"
        lookup := fun _ => none
        read := fun path => if path = "/home/u/.config/bf.toml" then .ok text.toUTF8
          else .error "No such file or directory (os error 2)"
        input := Input.ofBytes [65]
        output := {}
        terminal := true
        paint := fun text => "\x1b[1;31m" ++ text ++ "\x1b[0m"
        log := ⟨.error .useless, fun _ => ⟨fun _ => false⟩⟩
        configHome := some "/home/u/.config"
        handler := none
        clock := fun _ => none }
    let s : Log.Selection := ⟨fun _ => false⟩
    let words := [",+", ".>"]
    (Layer.ofVariables h.lookup).timeoutMs = none ∧ Input.Event.cancel ∉ h.input ∧
      h.output.Flawless ∧ h.log.selection false = .ok s ∧
      (∀ maxSteps,
        let o : Options := { maxSteps }
        Configures h o { policy := some .strict, capacity := some 1 } ∧
          Requests h.read o.file words (.text ",+.>")) ∧
      (∃ fuel output log, run h s fuel {} words = some (.exited 1 ⟨[], output,
        "bf: \x1b[1;31merror\x1b[0m: Runtime error: out of memory (ptr=0) at instruction 3\n" ++
          "  ,+.>\n     ^\n", log⟩) ∧ output.taken = #[66]) ∧
      ∃ fuel output log, run h s fuel { maxSteps := some 3 } words = some (.exited 1 ⟨[], output,
        "Execution aborted: step limit exceeded (3)\n", log⟩) ∧ output.taken = #[66] := by
  intro text h s words
  let file : Layer := { policy := some .strict, capacity := some 1 }
  have hvariables : (Layer.ofVariables h.lookup).timeoutMs = none := rfl
  have hinput : Input.Event.cancel ∉ h.input := by decide
  have hflawless : h.output.Flawless := ⟨rfl, rfl, rfl, rfl⟩
  have hgiven : ∀ maxSteps,
      Configures h { maxSteps } file ∧ Requests h.read none words (.text ",+.>") := by
    intro maxSteps
    have hpath : Locates h { maxSteps } (some ("/home/u/.config" ++ "/" ++ "bf.toml")) :=
      .home rfl rfl (by decide +kernel)
    have hname : "/home/u/.config" ++ "/" ++ "bf.toml" = "/home/u/.config/bf.toml" := by
      decide +kernel
    have hread : h.read ("/home/u/.config" ++ "/" ++ "bf.toml") = .ok text.toUTF8 := by
      rw [hname]
      simp [h]
    have hfile : (Settings.File.read text).1 = file := by decide +kernel
    exact ⟨hfile ▸ .text hpath hread, .words⟩
  have hsettings : ∀ maxSteps,
      settingsBy h { maxSteps } file = ⟨.strict, 1, none, maxSteps⟩ := by
    intro maxSteps
    cases maxSteps <;> rfl
  -- The command comes to what the evaluation under the given limit comes to.
  have hreports : ∀ maxSteps ending it' output',
      (Interpreter.fresh 1 .strict (some maxSteps)).EvaluatesTo .live false ",+.>" h.input {}
        ending it' [] output' →
      ∃ fuel status errors log, Reports h ",+.>" ending status errors ∧
        run h s fuel { maxSteps } words = some (.exited status ⟨[], output', errors, log⟩) := by
    intro maxSteps ending it' output' heval
    obtain ⟨hfile, hrequest⟩ := hgiven maxSteps
    have hle : (settingsBy h { maxSteps } file).capacity ≤ Tape.maxCapacity := by
      rw [hsettings]
      show 1 ≤ Tape.maxCapacity
      decide
    obtain ⟨_, _, _, _, htext, _⟩ :=
      run_reports rfl rfl hfile rfl hvariables rfl hle hinput hflawless s words
    have heval' : (Interpreter.fresh (settingsBy h { maxSteps } file).capacity
        (settingsBy h { maxSteps } file).policy
        (some (settingsBy h { maxSteps } file).maxSteps)).EvaluatesTo .live false ",+.>" h.input {}
        ending it' [] output' := by
      rw [hsettings]
      exact heval
    obtain ⟨fuel, status, errors, log, hreports, hrun⟩ := (htext _ hrequest).2 _ _ _ _ _ heval'
    exact ⟨fuel, status, errors, log, hreports, hrun fuel (Nat.le_refl fuel)⟩
  have hoverrun : ∃ it' output', (Interpreter.fresh 1 .strict (some none)).EvaluatesTo .live false
      ",+.>" h.input {} (.failed (.overrun ⟨3, 3⟩ (.pastLast 0))) it' [] output' ∧
      output'.taken = #[66] := ⟨_, _, ⟨5, _, rfl⟩, rfl⟩
  have hlimit : ∃ it' output', (Interpreter.fresh 1 .strict (some (some 3))).EvaluatesTo .live false
      ",+.>" h.input {} (.failed (.stepLimit 3)) it' [] output' ∧
      output'.taken = #[66] := ⟨_, _, ⟨5, _, rfl⟩, rfl⟩
  refine ⟨hvariables, hinput, hflawless, rfl, hgiven, ?_, ?_⟩
  · obtain ⟨it', output', heval, htaken⟩ := hoverrun
    obtain ⟨fuel, status, errors, log, hreported, hrun⟩ := hreports none _ it' output' heval
    cases hreported
    exact ⟨fuel, output', log, hrun, htaken⟩
  · obtain ⟨it', output', heval, htaken⟩ := hlimit
    obtain ⟨fuel, status, errors, log, hreported, hrun⟩ := hreports (some 3) _ it' output' heval
    cases hreported
    exact ⟨fuel, output', log, hrun, htaken⟩

end Command

end TapeMachine
