import TapeMachine.Tape
import TapeMachine.Text.Numeral

/-!
# TapeMachine.Settings.Basic

The settings of a run and where they come from.

* `Layer`            — what one source says: each setting is either given or left open.
* `Layer.ofVariables` — the layer of the environment variables. A variable that cannot be
  understood counts as unset.
* `Settings.resolve` — for every setting the first layer that gives it, or else the default.
-/

namespace TapeMachine

structure Layer where
  policy : Option Policy := none
  capacity : Option Nat := none
  timeoutMs : Option Nat := none
  maxSteps : Option Nat := none
  deriving DecidableEq

structure Settings where
  policy : Policy
  capacity : Nat
  timeoutMs : Option Nat
  maxSteps : Option Nat
  deriving DecidableEq

namespace Layer

def empty : Layer := {}

def number? (text : String) : Option Nat := Text.Numeral.value? (Text.trim text.toList)

def ofVariables (lookup : String → Option String) : Layer where
  policy := (lookup "BF_POLICY").bind fun text => (Policy.ofText text).toOption
  capacity := (lookup "BF_CAPACITY").bind number?
  timeoutMs := (lookup "BF_TIMEOUT_MS").bind number?
  maxSteps := (lookup "BF_MAX_STEPS").bind number?

end Layer

namespace Settings

/-- The settings by layers, the strongest first. A capacity of 0 stands for the default. -/
def resolve (flags environment file : Layer) : Settings where
  policy := (flags.policy <|> environment.policy <|> file.policy).getD .wrap
  capacity :=
    ((flags.capacity <|> environment.capacity <|> file.capacity).filter (0 < ·)).getD
      Tape.defaultCapacity
  timeoutMs := flags.timeoutMs <|> environment.timeoutMs <|> file.timeoutMs
  maxSteps := flags.maxSteps <|> environment.maxSteps <|> file.maxSteps

end Settings

end TapeMachine
