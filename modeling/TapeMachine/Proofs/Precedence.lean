import TapeMachine.Proofs.Reading

/-!
# TapeMachine.Proofs.Precedence

Where each setting comes from, said of the texts of the environment and of the settings file.

* `Settings.Chosen`     — what the first of three layers says that says anything.
* `Settings.Exports`, `Settings.Records` — what a variable of the environment denotes, and what the
  settings file denotes under a key.
* `Settings.Resolution` — every setting by its own flag, its own variable and its own key.
* `Settings.resolve_iff` — settings are resolved in this way and in no other.
-/

namespace TapeMachine.Settings

/-- What the flag says, or else the environment, or else the file. -/
inductive Chosen {α : Type} (flag : Option α) (environment file : α → Prop) : Option α → Prop where
  | flag {x : α} (h : flag = some x) : Chosen flag environment file (some x)
  | environment {x : α} (hflag : flag = none) (h : environment x) :
      Chosen flag environment file (some x)
  | file {x : α} (hflag : flag = none) (henvironment : ∀ y, ¬environment y) (h : file x) :
      Chosen flag environment file (some x)
  | nothing (hflag : flag = none) (henvironment : ∀ y, ¬environment y) (hfile : ∀ y, ¬file y) :
      Chosen flag environment file none

/-- A numeral with white space around it, and no underscores. -/
def Measures (text : String) (n : Nat) : Prop :=
  ∃ numeral, Text.Trims text.toList numeral ∧ Text.Numeral.Denotes numeral n

/-- The variable is set to a text that denotes the value. -/
def Exports {α : Type} (lookup : String → Option String) (name : String)
    (denotes : String → α → Prop) (x : α) : Prop :=
  ∃ text, lookup name = some text ∧ denotes text x

/-- The last assignment to the key is of a text that denotes the value. -/
def Records {α : Type} (config key : String) (denotes : String → α → Prop) (x : α) : Prop :=
  ∃ text, File.LastAssigns config key text ∧ denotes text x

/-- The settings are chosen one by one. A capacity of 0 is a choice as well, and stands for the
default. -/
structure Resolution (flags : Layer) (lookup : String → Option String) (config : String)
    (s : Settings) : Prop where
  policy : ∃ choice, Chosen flags.policy (Exports lookup "BF_POLICY" Policy.Named)
    (Records config "policy" Policy.Named) choice ∧ s.policy = choice.getD .wrap
  capacity : ∃ choice, Chosen flags.capacity (Exports lookup "BF_CAPACITY" Measures)
    (Records config "capacity" Counts) choice ∧
      ((choice = none ∨ choice = some 0) ∧ s.capacity = 30000 ∨
        0 < s.capacity ∧ choice = some s.capacity)
  timeoutMs : Chosen flags.timeoutMs (Exports lookup "BF_TIMEOUT_MS" Measures)
    (Records config "timeout_ms" Counts) s.timeoutMs
  maxSteps : Chosen flags.maxSteps (Exports lookup "BF_MAX_STEPS" Measures)
    (Records config "max_steps" Counts) s.maxSteps

/-- Layers that say one thing at most are gone through in their order. -/
theorem chosen_iff {α : Type} {flag given recorded choice : Option α}
    {environment file : α → Prop} (henvironment : ∀ x, given = some x ↔ environment x)
    (hfile : ∀ x, recorded = some x ↔ file x) :
    Chosen flag environment file choice ↔ choice = (flag <|> given <|> recorded) := by
  have hgiven : (∀ x, ¬environment x) ↔ given = none := by
    simp only [← henvironment, Option.eq_none_iff_forall_ne_some, ne_eq]
  have hrecorded : (∀ x, ¬file x) ↔ recorded = none := by
    simp only [← hfile, Option.eq_none_iff_forall_ne_some, ne_eq]
  constructor
  · intro h
    cases h with
    | flag h => simp [h]
    | environment hflag h => simp [hflag, (henvironment _).2 h]
    | file hflag hnone h => simp [hflag, hgiven.1 hnone, (hfile _).2 h]
    | nothing hflag hnone hnone' => simp [hflag, hgiven.1 hnone, hrecorded.1 hnone']
  · rintro rfl
    cases flag with
    | some x => exact .flag rfl
    | none =>
      cases given with
      | some x => exact .environment rfl ((henvironment x).1 rfl)
      | none =>
        cases recorded with
        | some x => exact .file rfl (hgiven.2 rfl) ((hfile x).1 rfl)
        | none => exact .nothing rfl (hgiven.2 rfl) (hrecorded.2 rfl)

theorem measures_iff {text : String} {n : Nat} : Measures text n ↔ Layer.number? text = some n := by
  rw [Layer.number?, Text.Numeral.value?_eq_some_iff]
  constructor
  · rintro ⟨numeral, htrims, hdenotes⟩
    rwa [Text.trims_iff.1 htrims]
  · exact fun h => ⟨_, Text.trims_trim _, h⟩

theorem chosen_number_iff (flag : Option Nat) (lookup : String → Option String) (name : String)
    {file : Nat → Prop} {recorded : Option Nat} (hfile : ∀ n, recorded = some n ↔ file n)
    (choice : Option Nat) :
    Chosen flag (Exports lookup name Measures) file choice ↔
      choice = (flag <|> (lookup name).bind Layer.number? <|> recorded) := by
  refine chosen_iff (fun n => ?_) hfile
  simp only [Option.bind_eq_some_iff, Exports, measures_iff]

theorem chosen_policy_iff (flag : Option Policy) (lookup : String → Option String) (name : String)
    {file : Policy → Prop} {recorded : Option Policy} (hfile : ∀ p, recorded = some p ↔ file p)
    (choice : Option Policy) :
    Chosen flag (Exports lookup name Policy.Named) file choice ↔
      choice = (flag <|> (lookup name).bind (fun text => (Policy.ofText text).toOption) <|>
        recorded) := by
  have htoOption : ∀ text p, (Policy.ofText text).toOption = some p ↔ Policy.Named text p := by
    intro text p
    rw [← Policy.ofText_eq_ok_iff]
    cases Policy.ofText text <;> simp [Except.toOption]
  refine chosen_iff (fun p => ?_) hfile
  simp only [Option.bind_eq_some_iff, Exports, htoOption]

theorem capacity_eq_iff {choice : Option Nat} {n : Nat} :
    n = (choice.filter (0 < ·)).getD Tape.defaultCapacity ↔
      (choice = none ∨ choice = some 0) ∧ n = 30000 ∨ 0 < n ∧ choice = some n := by
  have hdefault : Tape.defaultCapacity = 30000 := rfl
  match choice with
  | none => simp [hdefault]
  | some 0 =>
    constructor
    · intro h
      exact .inl ⟨.inr rfl, h⟩
    · rintro (⟨-, h⟩ | ⟨hpos, h⟩)
      · exact h
      · cases h
        exact absurd hpos (Nat.lt_irrefl 0)
  | some (k + 1) =>
    have hpos : (some (k + 1)).filter (fun k : Nat => 0 < k) = some (k + 1) := by simp
    rw [hpos, Option.getD_some]
    constructor
    · rintro rfl
      exact .inr ⟨Nat.succ_pos k, rfl⟩
    · rintro (⟨h | h, -⟩ | ⟨-, h⟩) <;> cases h
      rfl

/-- The settings that are resolved are those that are chosen one by one by the texts of the
environment and of the settings file: there are no others, and their capacity is never 0. -/
theorem resolve_iff (flags : Layer) (lookup : String → Option String) (config : String)
    (s : Settings) :
    let resolved := resolve flags (Layer.ofVariables lookup) (File.read config).1
    (Resolution flags lookup config s ↔ s = resolved) ∧ 1 ≤ resolved.capacity := by
  intro resolved
  have hfile := File.reading_of_visits (File.visits_finals (File.assignments config))
  have hpolicy := chosen_policy_iff flags.policy lookup "BF_POLICY" hfile.policy
  have hcapacity := chosen_number_iff flags.capacity lookup "BF_CAPACITY" hfile.capacity
  have htimeout := chosen_number_iff flags.timeoutMs lookup "BF_TIMEOUT_MS" hfile.timeoutMs
  have hsteps := chosen_number_iff flags.maxSteps lookup "BF_MAX_STEPS" hfile.maxSteps
  refine ⟨⟨?_, ?_⟩, ?_⟩
  · obtain ⟨policy, capacity, timeoutMs, maxSteps⟩ := s
    rintro ⟨⟨choice, hchoice, rfl⟩, ⟨choice', hchoice', hcapacity'⟩, htimeout', hsteps'⟩
    obtain rfl := (hpolicy _).1 hchoice
    obtain rfl := (hcapacity _).1 hchoice'
    obtain rfl := (htimeout _).1 htimeout'
    obtain rfl := (hsteps _).1 hsteps'
    obtain rfl := capacity_eq_iff.2 hcapacity'
    rfl
  · rintro rfl
    exact ⟨⟨_, (hpolicy _).2 rfl, rfl⟩, ⟨_, (hcapacity _).2 rfl, capacity_eq_iff.1 rfl⟩,
      (htimeout _).2 rfl, (hsteps _).2 rfl⟩
  · rcases capacity_eq_iff.1 (show resolved.capacity = _ from rfl) with ⟨-, h⟩ | ⟨h, -⟩
    · omega
    · exact h

/-- A capacity of 0 wins over a greater one in the file, also among blanks of every kind. A number
that is too large by one counts as unset, so does one with underscores in a variable or one with a
blank in quotes. -/
theorem resolve_iff_trimmed :
    let lookup : String → Option String := fun name =>
      if name = "BF_CAPACITY" then some "\u00a0+00\u2003\n"
      else if name = "BF_TIMEOUT_MS" then some "18446744073709551616"
      else if name = "BF_MAX_STEPS" then some "1_000"
      else none
    let config := "[interpreter]\npolicy = \" STRICT \"\ncapacity = 5\n" ++
      "timeout_ms = _+18446744073709551_615\nmax_steps = \" 7\"\n"
    Resolution {} lookup config ⟨.strict, 30000, some 18446744073709551615, none⟩ := by
  intro lookup config
  have hresolved : ⟨.strict, 30000, some 18446744073709551615, none⟩ =
      resolve {} (Layer.ofVariables lookup) (File.read config).1 := by decide +kernel
  exact (resolve_iff {} lookup config _).1.2 hresolved

end TapeMachine.Settings
